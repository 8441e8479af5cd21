import TejkItIzi.Builds
import TejkItIzi.Causes
import TejkItIzi.CharacterTable
import TejkItIzi.ChatDelivery
import TejkItIzi.ChatDisconnect
import TejkItIzi.ChatEffects
import TejkItIzi.ChatInvariants
import TejkItIzi.ChatMembership
import TejkItIzi.ChatSystem
import TejkItIzi.Client
import TejkItIzi.ClientProcess
import TejkItIzi.Commands
import TejkItIzi.Constraints
import TejkItIzi.Continuations
import TejkItIzi.Database
import TejkItIzi.Draining
import TejkItIzi.FriendConsent
import TejkItIzi.FriendEffects
import TejkItIzi.FriendFailures
import TejkItIzi.FriendInvariants
import TejkItIzi.FriendPresence
import TejkItIzi.FriendSystem
import TejkItIzi.Friendships
import TejkItIzi.Grammar
import TejkItIzi.InGame
import TejkItIzi.Lib.Framing
import TejkItIzi.Lib.Groups
import TejkItIzi.Lib.Handshake
import TejkItIzi.Lib.LittleEndian
import TejkItIzi.Lib.Periodic
import TejkItIzi.Lib.Potentials
import TejkItIzi.Lib.Prog
import TejkItIzi.Lib.Quoted
import TejkItIzi.Lib.Runs
import TejkItIzi.Lib.SetUpdates
import TejkItIzi.Lib.Simulation
import TejkItIzi.Lib.USet
import TejkItIzi.Lib.Words
import TejkItIzi.Listed
import TejkItIzi.LobbyLists
import TejkItIzi.Logins
import TejkItIzi.Network
import TejkItIzi.Nicknames
import TejkItIzi.PacketEffects
import TejkItIzi.PacketExceptions
import TejkItIzi.PacketOutcomes
import TejkItIzi.PacketPhases
import TejkItIzi.PacketSizes
import TejkItIzi.Packets
import TejkItIzi.PendingRequests
import TejkItIzi.PendingTimes
import TejkItIzi.PeriodicTasks
import TejkItIzi.Phases
import TejkItIzi.Playing
import TejkItIzi.Reads
import TejkItIzi.Registries
import TejkItIzi.Requests
import TejkItIzi.Restarts
import TejkItIzi.Seats
import TejkItIzi.Selections
import TejkItIzi.Senders
import TejkItIzi.Server
import TejkItIzi.ServerChat
import TejkItIzi.ServerEffects
import TejkItIzi.ServerFriends
import TejkItIzi.ServerInvariants
import TejkItIzi.ServerPresence
import TejkItIzi.SessionViews
import TejkItIzi.Sockets
import TejkItIzi.Statements
import TejkItIzi.Timers
import TejkItIzi.UserInput
import TejkItIzi.Utils
import TejkItIzi.Whispers
import TejkItIzi.WireFormat
import TejkItIzi.World
