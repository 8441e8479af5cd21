import TejkItIzi.Network
import TejkItIzi.WireFormat
/-!
# Commands over the network

What `commandline_client` writes for its commands, on a connection that may end at
any byte, and what the server makes of it.
-/

namespace tejk_it_izi

open ProgLib

def ClientCommand.written (command : ClientCommand) : Bytes := Build.x86_64.written command.fields

/-- What `send_to_client` of the client's socket writes. -/
def ClientCommand.bytes (command : ClientCommand) : Bytes :=
  boost_socket.send_to_client (.of command.written) command.written.length

/-- The packets that the server is called with, in the order of the calls. -/
def ServerEvent.packets (k : SessionId) : ServerEvent → List (Buffer × Nat)
  | .handler (.on_recv j data size) => if j = k then [(data, size)] else []
  | _ => []

/-! ## The socket of a session -/

section sessions

variable {s s' : Server} {n0 n n' : Network} {k : SessionId} {recvbuf : Buffer} {incoming : Bytes}

theorem sessions_stay {tr : List (Taken Server ServerEvent)} (hok : ServerOk s) (h : serverMachine.Run s tr s')
    (hk : (s.clients k).isSome = true) : (s'.clients k).isSome = true := by
  induction h with
  | nil => exact hk
  | snoc hr hs ih =>
    have hok' := hr.keeps (I := ServerOk) (C := fun _ _ => True) (fun _ _ _ hi _ hs => server_ok_step hi hs)
      (fun _ _ => trivial) hok
    obtain ⟨c, hc⟩ := Option.isSome_iff_exists.1 ih
    obtain ⟨c', hc', _⟩ := session_continues hok' hs hc
    rw [hc']
    rfl

/-- The socket that a connection is accepted with stays the session's. -/
theorem accepted_run {tr : List (Taken Network NetEvent)} (h0 : netMachine.init n0) (h : netMachine.Run n0 tr n)
    {x : Taken Network NetEvent} (hx : x ∈ tr) (hev : x.event = .accept k recvbuf incoming) :
    ∃ socket tr', n.sockets k = some socket ∧ socketMachine.Run (.new recvbuf incoming) tr' socket := by
  induction h with
  | nil => cases hx
  | @snoc tr n ev n' hr hs ih =>
    obtain ⟨hok, _⟩ := net_run h0 hr
    obtain ⟨hok', ⟨tr1, hr1, _⟩, hsockets⟩ := net_step hok hs
    have hexists (hk : (n.server.clients k).isSome = true ∨ (n'.server.clients k).isSome = true) :
        ∃ socket', n'.sockets k = some socket' := by
      rw [← Option.isSome_iff_exists, hok'.sessions k]
      exact hk.elim (sessions_stay hok.server hr1) id
    rcases List.mem_append.1 hx with hx | hx
    · -- It had been accepted: its socket is still there, and nothing is accepted for it again.
      obtain ⟨socket, tr2, hsocket, hr2⟩ := ih hx
      obtain ⟨socket', hsocket'⟩ := hexists (.inl (by rw [← hok.sessions k, hsocket]; rfl))
      rcases hsockets k socket' hsocket' with ⟨socket0, tr3, hsocket0, hr3⟩ | ⟨_, _, _, rfl, _⟩
      · rw [hsocket] at hsocket0
        cases hsocket0
        exact ⟨socket', tr2 ++ tr3, hsocket', hr2.trans hr3⟩
      · rw [hs.1] at hsocket
        cases hsocket
    · rw [List.mem_singleton.1 hx] at hev
      obtain rfl : ev = .accept k recvbuf incoming := hev
      obtain ⟨hnone, hh⟩ := hs
      obtain ⟨o, _, _, hobeying⟩ := hh
      have hnew : ∃ socket', n'.sockets k = some socket' := by
        rw [hobeying]
        unfold obeying
        rw [Function.update_self]
        exact ⟨_, rfl⟩
      obtain ⟨socket', hsocket'⟩ := hnew
      rw [hobeying] at hsocket'
      obtain ⟨socket, tr2, hsocket, hr2⟩ := obeying_run hsocket'
      rw [Function.update_self] at hsocket
      cases hsocket
      exact ⟨socket', tr2, by rw [hobeying]; exact hsocket', hr2⟩

end sessions

/-! ## Packets and commands -/

section commands

variable {n0 n : Network} {k : SessionId} {recvbuf : Buffer} {incoming : Bytes} {commands : List ClientCommand}

theorem ClientCommand.bytes_frame {command : ClientCommand} (h : command.written.length ≤ buffer_size) :
    command.bytes = wire.frame command.written := by
  unfold ClientCommand.bytes boost_socket.send_to_client
  rw [(holds_of h).bytes]
  rfl

/-- The frames of a stream that is cut off are the first ones. -/
theorem longest_commands {all : List Bytes} (hsmall : ∀ command ∈ commands, command.written.length ≤ buffer_size)
    (hin : incoming <+: commands.flatMap ClientCommand.bytes) (hall : wire.Longest incoming all) :
    all <+: commands.map ClientCommand.written ∧
      (incoming = commands.flatMap ClientCommand.bytes → all = commands.map ClientCommand.written) := by
  have hvalid : wire.Valid (commands.map ClientCommand.written) := by
    intro payload hmem
    obtain ⟨command, hc, rfl⟩ := List.mem_map.1 hmem
    exact hsmall command hc
  have hframes : (commands.map ClientCommand.written).flatMap wire.frame = commands.flatMap ClientCommand.bytes := by
    rw [List.flatMap_map]
    exact List.flatMap_congr fun command hc => (ClientCommand.bytes_frame (hsmall command hc)).symm
  have hlongest := Framing.longest_frames hvalid Framing.next_nil
  rw [List.append_nil, hframes] at hlongest
  refine ⟨hlongest.longest all hall.valid (hall.is_prefix.trans hin), ?_⟩
  rintro rfl
  exact hall.unique hlongest

/-- The packets are what is handed, the error apart. -/
theorem packets_handed (ev : ServerEvent) :
    (ev.packets k).map (fun call => call.1.bytes.take call.2) = (ev.handed k).filterMap id := by
  cases ev with
  | reorder => rfl
  | handler hd =>
    cases hd with
    | on_recv j data size | on_error j =>
      simp only [ServerEvent.packets, ServerEvent.handed]
      split <;> rfl
    | _ => rfl

theorem packets_small {s s' : Server} {tr : List (Taken Server ServerEvent)} (h : serverMachine.Run s tr s') :
    ∀ call ∈ tr.flatMap fun y => y.event.packets k, call.2 ≤ buffer_size := by
  intro call hcall
  obtain ⟨y, hy, hcall⟩ := List.mem_flatMap.1 hcall
  have hstep := h.step_of_mem hy
  generalize y.event = ev at hcall hstep
  cases ev with
  | reorder => cases hcall
  | handler hd =>
    obtain ⟨o, ha, _⟩ := hstep
    cases hd with
    | on_recv j data size =>
      simp only [ServerEvent.packets] at hcall
      split at hcall
      · rw [List.mem_singleton.1 hcall]
        exact ha.enabled.2
      · cases hcall
    | _ => cases hcall

/-- A packet that holds a command is read as it. -/
theorem call_read {command : ClientCommand} {data : Buffer} {size : Nat} (hsize : size ≤ buffer_size)
    (h : data.bytes.take size = command.written) : command.ReadAs .x86_64 data size := by
  have hlen : command.written.length = size := by
    rw [← h, List.length_take, data.full, Nat.min_eq_left hsize]
  have hholds : data.Holds (Build.x86_64.written command.fields ++ []) := by
    rw [List.append_nil]
    refine ⟨?_, ?_⟩
    · show command.written.length ≤ buffer_size
      rwa [hlen]
    · show data.bytes.take command.written.length = command.written
      rwa [hlen]
  have hread := command_read command hholds
  rw [List.append_nil] at hread
  rwa [show (Build.x86_64.written command.fields).length = size from hlen] at hread

theorem received_filterMap (first : List ClientCommand) :
    (first.map fun command => some command.written).filterMap id = first.map ClientCommand.written := by
  rw [List.filterMap_map]
  show first.filterMap (some ∘ ClientCommand.written) = _
  rw [List.filterMap_eq_map]

/-- Whatever else happens on the network: of the commands that come in on a
connection, the server is handed the first ones, each of them once and in order, and
reads each as the command that it is. If it is told of an error, no whole command was
left. -/
theorem commands_arrive {tr : List (Taken Network NetEvent)} {x : Taken Network NetEvent} (h0 : netMachine.init n0)
    (h : netMachine.Run n0 tr n) (hx : x ∈ tr) (hev : x.event = .accept k recvbuf incoming)
    (hsmall : ∀ command ∈ commands, command.written.length ≤ buffer_size)
    (hin : incoming <+: commands.flatMap ClientCommand.bytes) :
    ∃ tr' first, serverMachine.Run n0.server tr' n.server ∧ first <+: commands ∧
      List.Forall₂ (fun call command => command.ReadAs .x86_64 call.1 call.2) (tr'.flatMap fun y => y.event.packets k)
        first ∧
      (n.received k = first.map (fun command => some command.written) ∨
        n.received k = first.map (fun command => some command.written) ++ [none] ∧
          (incoming = commands.flatMap ClientCommand.bytes → first = commands)) := by
  obtain ⟨_, ⟨tr', hr', hhanded⟩, _⟩ := net_run h0 h
  obtain ⟨socket, tr1, hsocket, hr1⟩ := accepted_run h0 h hx hev
  obtain ⟨all, hall⟩ := Framing.exists_longest wire incoming
  obtain ⟨hfirst, hwhole⟩ := longest_commands hsmall hin hall
  have hreceived : n.received k = socket.received := by
    rw [Network.received, hsocket]
    rfl
  have hcalls (first : List ClientCommand) (hpackets : (n.received k).filterMap id = first.map ClientCommand.written) :
      List.Forall₂ (fun call command => command.ReadAs .x86_64 call.1 call.2)
        (tr'.flatMap fun y => y.event.packets k) first := by
    have hmap : (tr'.flatMap fun y => y.event.packets k).map (fun call => call.1.bytes.take call.2) =
        first.map ClientCommand.written := by
      rw [← hpackets, ← hhanded k, List.map_flatMap, List.filterMap_flatMap]
      exact List.flatMap_congr fun y _ => packets_handed y.event
    have heq := List.forall₂_map_left_iff.1 (List.forall₂_map_right_iff.1
      (show List.Forall₂ Eq _ _ from List.forall₂_eq_eq_eq ▸ hmap))
    exact ((List.forall₂_and_left _ _).2 ⟨packets_small hr', heq⟩).imp fun call command hc => call_read hc.1 hc.2
  have hpackets {ps : List Bytes} (hps : ps <+: all) :
      ∃ first, first <+: commands ∧ ps.map some = first.map fun command => some command.written := by
    obtain ⟨first, hfirst, rfl⟩ := List.prefix_map_iff.1 (hps.trans hfirst)
    exact ⟨first, hfirst, List.map_map⟩
  rw [hreceived] at hcalls ⊢
  rcases socket_run hall hr1 with ⟨ps, qs, hw, _⟩ | ⟨_, hf | ⟨_, ⟨ps, hps, hcalled⟩, _⟩⟩
  · obtain ⟨first, hprefix, hmap⟩ := hpackets ⟨qs, hw.split.symm⟩
    have hthere := hw.received.trans hmap
    exact ⟨tr', first, hr', hprefix, hcalls first (by rw [hthere, received_filterMap]), .inl hthere⟩
  · obtain ⟨first, hprefix, hmap⟩ := hpackets List.prefix_rfl
    have hthere : socket.received = _ ++ [none] := hf.received.trans (by rw [hmap])
    refine ⟨tr', first, hr', hprefix, hcalls first ?_, .inr ⟨hthere, fun hin' => ?_⟩⟩
    · rw [hthere, List.filterMap_append, received_filterMap]
      exact List.append_nil _
    · -- All of them have been read.
      rw [hwhole hin', List.map_map] at hmap
      have hlen := congrArg List.length hmap
      rw [List.length_map, List.length_map] at hlen
      exact hprefix.eq_of_length hlen.symm
  · obtain ⟨first, hprefix, hmap⟩ := hpackets hps
    have hthere := hcalled.trans hmap
    exact ⟨tr', first, hr', hprefix, hcalls first (by rw [hthere, received_filterMap]), .inl hthere⟩

end commands

/-! ## Dora writes -/

def doras_commands : List ClientCommand := [.loginserver_keys (ascii "foo"), .select_character (ascii "Dora")]

/-- Her second command is cut off. -/
def doras_line_in : BoostSocket := .new (.of []) ((doras_commands.flatMap ClientCommand.bytes).take 90)

def doras_login_handed : Network := packet_arrives doras_line_in 76

theorem dora_is_read : ∃ tr' first, serverMachine.Run (.fresh doras_tables) tr' doras_login_handed.server ∧
    first <+: doras_commands ∧
    List.Forall₂ (fun call command => command.ReadAs .x86_64 call.1 call.2) (tr'.flatMap fun y => y.event.packets 0)
      first ∧ doras_login_handed.server.sync_strand = [.transition 0] := by
  have h0 : netMachine.init net_of_doras_tables := ⟨doras_tables_init, rfl⟩
  have s1 : netMachine.step net_of_doras_tables (.accept 0 (.of []) doras_line_in.incoming) (connected doras_line_in) :=
    ⟨rfl, handled_step (nobody_allocates rfl rfl) rfl⟩
  have s2 : netMachine.step (connected doras_line_in) (.read 0) (length_arrives doras_line_in) :=
    ⟨doras_line_in.async_recv, doras_line_in.length_read, [], rfl, rfl, rfl, rfl⟩
  have s3 : netMachine.step (length_arrives doras_line_in) (.read 0) doras_login_handed :=
    ⟨doras_line_in.length_read, doras_line_in.length_read.data_read 76, [.on_recv _ 76], rfl, rfl, rfl,
      handled_step (nobody_allocates rfl rfl) rfl⟩
  have hrun := ((Machine.Run.nil.snoc s1).snoc s2).snoc s3
  have hsmall : ∀ command ∈ doras_commands, command.written.length ≤ buffer_size := by decide
  have hin : doras_line_in.incoming <+: doras_commands.flatMap ClientCommand.bytes := List.take_prefix _ _
  obtain ⟨tr', first, hr, hfirst, hread, _⟩ := commands_arrive h0 hrun
    (List.mem_append_left _ (List.mem_append_left _ (List.mem_singleton_self _))) rfl hsmall hin
  exact ⟨tr', first, hr, hfirst, hread, rfl⟩

end tejk_it_izi
