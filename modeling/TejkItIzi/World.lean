import TejkItIzi.Database
import TejkItIzi.PendingRequests
import Mathlib.Data.List.AList
/-!
# The world

The state the in-game subsystems share: the registry of online players, the
chat rooms, the friend lists, the database, what the current handler takes from
outside (`Env`) and what it has put out so far. Hash maps are partial functions,
except the chat rooms, which are iterated.
-/

namespace tejk_it_izi

open ProgLib

abbrev SessionId := Nat

/-- A `tii_entity_representative` with the address of the object: its pointers
are compared by address, and its fields never change. -/
structure TiiEntityRepresentative where
  address : Nat
  id : Nat
  name : Bytes
  my_session : SessionId
  deriving DecidableEq

/-- `tii_entity_representative::const_pointer`. -/
abbrev EntityPtr := TiiEntityRepresentative

structure WorldRegistrar where
  id_to_character : Nat → Option EntityPtr
  name_to_character : Bytes → Option EntityPtr

def WorldRegistrar.add (r : WorldRegistrar) (character : EntityPtr) : WorldRegistrar where
  id_to_character := Function.update r.id_to_character character.id (some character)
  name_to_character := Function.update r.name_to_character character.name (some character)

def WorldRegistrar.remove (r : WorldRegistrar) (character : EntityPtr) : WorldRegistrar where
  id_to_character := Function.update r.id_to_character character.id none
  name_to_character := Function.update r.name_to_character character.name none

/-- `chatroom*`: the address of a room inside its map node. -/
abbrev RoomPtr := Nat

structure Chatroom where
  room_name : Bytes
  participants : USet EntityPtr

/-- The backend is the `default_chat_backend` on the session of the
representative, so it is not kept apart. -/
structure EntityData where
  chatrooms_im_in : USet RoomPtr

/-- `active_chatrooms` gives the address of the room stored under each name,
`rooms` the rooms at their addresses. -/
structure ChatSystem where
  entities : EntityPtr → Option EntityData
  active_chatrooms : AList (fun _ : Bytes => RoomPtr)
  rooms : RoomPtr → Option Chatroom

/-- The backend is the `default_friend_backend` of this representative. -/
structure FriendList where
  backend : EntityPtr
  friend_ids : USet Nat

structure FriendSystem where
  friendlist_of_id : Nat → Option FriendList
  pending_requests : PendingFriendRequests

/-- What a handler takes from outside: the clock, the addresses the allocator
hands out, and how the database statements go (`some e`: the statement throws
`e` and changes nothing; past the end of the list all succeed). -/
structure Env where
  now : Time
  new_room : RoomPtr
  new_entity : Nat
  db_outcomes : List (Option StdException)

structure World where
  registry : WorldRegistrar
  chat : ChatSystem
  friends : FriendSystem
  db : Database
  env : Env
  /-- Packets handed to the sessions' `send_to_client`, in order. -/
  notices : List (EntityPtr × Packet)
  /-- Statements executed, in order. -/
  statements : List Statement

abbrev WorldM := EStateM Fault World

/-- A server that has just been started on this database. -/
def World.fresh (db : Database) : World where
  registry := ⟨fun _ => none, fun _ => none⟩
  chat := ⟨fun _ => none, ∅, fun _ => none⟩
  friends := ⟨fun _ => none, .empty⟩
  db := db
  env := ⟨0, 0, 0, []⟩
  notices := []
  statements := []

/-- The world as a handler finds it: nothing sent yet, the rest from outside. -/
def World.begin (w : World) (env : Env) : World := { w with env := env, notices := [], statements := [] }

/-- The packets, addressed to the sessions of their recipients. -/
def World.mails (w : World) : List (SessionId × Packet) := w.notices.map fun n => (n.1.my_session, n.2)

/-- The packets have been handed on. -/
def World.quiet (w : World) : World := { w with notices := [] }

/-- A backend writes a packet and sends it on its session. The source is undefined for
packets longer than its buffer; `Handler.Fits` says which handlers write none. -/
def send_packet (recipient : EntityPtr) (p : Packet) : WorldM Unit :=
  modify fun w => { w with notices := w.notices ++ [(recipient, p)] }

/-! ## `psql_facade` -/

/-- How the next statement goes. -/
def World.db_answer (w : World) : Option StdException := w.env.db_outcomes.head?.join

/-- The next statement has been sent to the database. -/
def World.executed (w : World) (st : Statement) : World :=
  { w with
    statements := w.statements ++ [st]
    env := { w.env with db_outcomes := w.env.db_outcomes.tail } }

namespace psql_facade

/-- `w.exec(..)` and, where there is one, the commit. -/
def exec (st : Statement) : WorldM Unit := fun w =>
  match w.db_answer with
  | none => .ok () (w.executed st)
  | some e => .error (.exception e) (w.executed st)

theorem exec_ok {w : World} (h : w.db_answer = none) (st : Statement) : exec st w = .ok () (w.executed st) := by
  simp [exec, h]

theorem exec_fails {w : World} {e : StdException} (h : w.db_answer = some e) (st : Statement) :
    exec st w = .error (.exception e) (w.executed st) := by
  simp [exec, h]

def get_lobby_chars (account_uid : Nat) : WorldM (List LobbyCharacter) := do
  exec (.lobby_chars account_uid)
  return (← get).db.get_lobby_chars account_uid

def erase_character (character : LobbyCharacter) : WorldM Unit := do
  exec (.erase_character character.name)
  modify fun w => { w with db := w.db.erase_character character.name }

/-- In a database that reads texts like this; `query_res` is empty or has a row,
and what is no number does not convert. -/
def char_name_to_uid_by (r : QueryReading) (nickname : Bytes) : WorldM Nat := do
  exec (.char_name_to_uid nickname)
  let (answer, db) := r.lookup (Statement.char_name_to_uid nickname).text (← get).db
  modify fun w => { w with db := db }
  match answer with
  | .ok uid => return uid
  | .error e => throw (.exception e)

/-- With the lookup that the text is meant to be. For a name without a quote every
database does this (`char_name_to_uid_by_exact`). -/
def char_name_to_uid (nickname : Bytes) : WorldM Nat := do
  exec (.char_name_to_uid nickname)
  return (← get).db.char_name_to_uid nickname

theorem char_name_to_uid_by_exact (r : QueryReading) {nickname : Bytes} (h : (Statement.char_name_to_uid nickname).Exact) :
    char_name_to_uid_by r nickname = char_name_to_uid nickname := by
  funext w
  unfold char_name_to_uid_by char_name_to_uid
  cases ha : w.db_answer with
  | none =>
    rw [bind_ok (exec_ok ha _), bind_ok (exec_ok ha _), get_bind, get_bind, r.exact nickname _ h]
    rfl
  | some e => rw [bind_error (exec_fails ha _), bind_error (exec_fails ha _)]

def is_nickname_already_taken (nickname : Bytes) : WorldM Bool := do
  let uid ← char_name_to_uid nickname
  return uid != 0

def create_character (nickname : Bytes) (owner_acc_id : Nat) : WorldM LobbyCharacter := do
  exec (.create_character owner_acc_id nickname)
  let uid := (← get).db.next_character_id
  modify fun w => { w with db := w.db.create_character nickname owner_acc_id }
  return ⟨uid, nickname⟩

def get_account_data (login : Bytes) : WorldM AccountData := do
  exec (.account login)
  match (← get).db.get_account_data login with
  | none => throw (.exception .other)
  | some res =>
    exec (.access_level res.uid)
    return res

def get_friends_of (char_id : Nat) : WorldM (USet Nat) := do
  exec (.friends_of char_id)
  return (← get).db.get_friends_of char_id

def make_friends (one other : Nat) : WorldM Unit := do
  exec (.make_friends (Database.ordered one other))
  modify fun w => { w with db := w.db.make_friends one other }

def remove_friends (one other : Nat) : WorldM Unit := do
  exec (.remove_friends (Database.ordered one other))
  modify fun w => { w with db := w.db.remove_friends one other }

end psql_facade

/-! ## `world_registrar` -/

namespace world_registrar

def invalid_id : Nat := 0

def register_me (character : EntityPtr) : WorldM Unit := do
  let r := (← get).registry
  cpp_assert (r.id_to_character character.id = none)
  cpp_assert (r.name_to_character character.name = none)
  modify fun w => { w with registry := w.registry.add character }

def unregister_me (character : EntityPtr) : WorldM Unit := do
  let r := (← get).registry
  cpp_assert (r.id_to_character character.id ≠ none)
  cpp_assert (r.name_to_character character.name ≠ none)
  modify fun w => { w with registry := w.registry.remove character }

theorem register_me_eq {w : World} {p : EntityPtr} (hid : w.registry.id_to_character p.id = none)
    (hname : w.registry.name_to_character p.name = none) :
    register_me p w = .ok () { w with registry := w.registry.add p } := by
  simp [register_me, bind_ok (cpp_assert_run hid w), bind_ok (cpp_assert_run hname w)]

theorem register_me_ok {w w' : World} {p : EntityPtr} (h : register_me p w = .ok () w') :
    w.registry.id_to_character p.id = none ∧ w.registry.name_to_character p.name = none ∧
      w' = { w with registry := w.registry.add p } := by
  simp only [register_me, get_bind, cpp_assert_bind_ok, modify_run, EStateM.Result.ok.injEq, true_and] at h
  exact ⟨h.1, h.2.1, h.2.2.symm⟩

theorem unregister_me_eq {w : World} {p : EntityPtr} (hid : w.registry.id_to_character p.id ≠ none)
    (hname : w.registry.name_to_character p.name ≠ none) :
    unregister_me p w = .ok () { w with registry := w.registry.remove p } := by
  simp only [unregister_me, get_bind]
  rw [bind_ok (cpp_assert_run hid w), bind_ok (cpp_assert_run hname w)]
  rfl

def find_online_player_by_name (name : Bytes) : WorldM (Option EntityPtr) := do
  return (← get).registry.name_to_character name

def find_online_player_by_id (id : Nat) : WorldM (Option EntityPtr) := do
  return (← get).registry.id_to_character id

def find_player_id_by_name_in_database (name : Bytes) : WorldM Nat := psql_facade.char_name_to_uid name

end world_registrar

/-! ## The order of hash containers -/

/-- The same world up to the order in which sets, the room map and the database
tables are iterated. A rehash, or another plan of the database, changes no more. -/
structure World.Reorders (w w' : World) : Prop where
  registry : w'.registry = w.registry
  rooms_perm : w.chat.active_chatrooms.entries.Perm w'.chat.active_chatrooms.entries
  rooms : ∀ a, Option.Rel (fun r r' => r.room_name = r'.room_name ∧ r.participants.Reorders r'.participants)
    (w.chat.rooms a) (w'.chat.rooms a)
  entities : ∀ p, Option.Rel (fun e e' => e.chatrooms_im_in.Reorders e'.chatrooms_im_in)
    (w.chat.entities p) (w'.chat.entities p)
  friendlists : ∀ id, Option.Rel (fun l l' => l.backend = l'.backend ∧ l.friend_ids.Reorders l'.friend_ids)
    (w.friends.friendlist_of_id id) (w'.friends.friendlist_of_id id)
  pending_requests : w'.friends.pending_requests = w.friends.pending_requests
  characters : w.db.characters.Perm w'.db.characters
  character_friends : w.db.character_friends.Perm w'.db.character_friends
  accounts : w'.db.accounts = w.db.accounts
  access_level : w'.db.access_level = w.db.access_level
  next_character_id : w'.db.next_character_id = w.db.next_character_id

end tejk_it_izi
