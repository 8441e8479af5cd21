import TejkItIzi.ServerInvariants
/-!
# Exceptions in packet handlers

Nothing catches what leaves `mmoclient::on_recv`. A packet makes an exception
leave it only before the login, where the opcode and the account lookup are not
covered by the handler that the other two states have; and selecting a character
that is in the game already, or its own friend, fails an assertion.
-/

namespace tejk_it_izi

open ProgLib

/-- The session goes to the lobby next. -/
def LobbyScheduled (s : Server) (k : SessionId) : Prop :=
  ∃ c acc, s.clients k = some c ∧ c.state_awaiting_transition = some (.lobby_state acc []) ∧
    Task.transition k ∈ s.sync_strand

/-- The session has lost its socket and is to be finalized. -/
def ForceClosed (s : Server) (k : SessionId) : Prop :=
  ∃ c, s.clients k = some c ∧ c.is_open = false ∧ Task.finalize k ∈ s.sync_strand

/-- The packet is empty, or its keys are accepted and the account lookup throws
what is no `underflow_error`; or it selects a listed character whose id is in
use, or who, when its friends have been loaded, is one of them or has a name in
use. -/
def EndsServer (s : Server) (c : MmoClient) (data : Buffer) (size : Nat) : Prop :=
  match c.current_state with
  | .preauth_state => size = 0 ∨ ∃ key login, preauth_state.read data size = .keys key login ∧
      s.authenticator key login = true ∧ (s.world.account_lookup login).1 = .error .other
  | .lobby_state _ chars => ∃ name ch,
      lobby_state_recv_packet_factory.construct data size = .ok (.request_character_select name) ∧
      chars.find? (·.name = name) = some ch ∧
      (s.world.registry.id_to_character ch.uid ≠ none ∨
        ((ch.uid ∈ s.world.db.get_friends_of ch.uid ∨ s.world.registry.name_to_character ch.name ≠ none) ∧
          s.world.db_answer = none))
  | _ => False

theorem read_no_opcode_iff (data : Buffer) {size : Nat} (h : size ≤ buffer_size) :
    preauth_state.read data size = .no_opcode ↔ size = 0 := by
  have hpod : (data.reader size).read_opcode = .error .underflow_error ↔ size = 0 := by
    have hlt : (data.reader size).max_size < (data.reader size).current_pos + BitVec.ofNat 64 1 ↔ size = 0 := by
      have hsize : size < 2 ^ 64 := by unfold buffer_size at h; omega
      simp only [Buffer.reader, BinaryDeserializer.new, BitVec.lt_def, BitVec.toNat_ofNat, BitVec.toNat_add,
        Nat.mod_eq_of_lt hsize]
      simp
    unfold BinaryDeserializer.read_opcode BinaryDeserializer.read_pod
    by_cases hz : size = 0
    · rw [if_pos (hlt.2 hz)]
      exact iff_of_true rfl hz
    · rw [if_neg fun hc => hz (hlt.1 hc)]
      exact iff_of_false (by simp [bind, Except.bind]) hz
  rw [← hpod]
  unfold preauth_state.read
  cases hop : (data.reader size).read_opcode with
  | error e => simp [read_opcode_error hop]
  | ok r =>
    simp only [reduceCtorEq, iff_false]
    split
    · split
      · simp
      · split <;> simp
    · simp

theorem endsServer_iff {s : Server} {k : SessionId} {c : MmoClient} {data : Buffer} {size : Nat}
    (h : size ≤ buffer_size) :
    EndsServer s c data size ↔ PacketDies k { c with receiving := false } s.world s.authenticator data size := by
  unfold EndsServer PacketDies
  cases hcur : c.current_state with
  | preauth_state =>
    simp only
    rw [← read_no_opcode_iff data h]
    cases hread : preauth_state.read data size <;> simp [Escapes]
  | lobby_state acc chars =>
    constructor
    · rintro ⟨name, ch, hr, hf, hclash⟩
      exact ⟨_, hr, name, ch, rfl, hf, hclash⟩
    · rintro ⟨_, hr, name, ch, rfl, hf, hclash⟩
      exact ⟨name, ch, hr, hf, hclash⟩
  | null_state | ingame_state => exact Iff.rfl

section sessions

variable {s : Server} {k : SessionId} {c : MmoClient} {g : Progress}

theorem closing_exactly_one (h : g.client.state_awaiting_transition = none) :
    Xor (LobbyScheduled (s.progress k (g.closing k)) k) (ForceClosed (s.progress k (g.closing k)) k) := by
  refine .inr ⟨⟨_, progress_client, rfl, by simp [Server.progress, Progress.closing]⟩, ?_⟩
  rintro ⟨c, acc, hc, hst, _⟩
  rw [progress_client] at hc
  cases hc
  rw [show (g.closing k).client.state_awaiting_transition = none from h] at hst
  cases hst

theorem changing_exactly_one (h : g.client.is_open = true) (acc : AccountData) :
    Xor (LobbyScheduled (s.progress k (g.changing k (.lobby_state acc []))) k)
      (ForceClosed (s.progress k (g.changing k (.lobby_state acc []))) k) := by
  refine .inl ⟨⟨_, acc, progress_client, rfl, by simp [Server.progress, Progress.changing]⟩, ?_⟩
  rintro ⟨c, hc, hopen, _⟩
  rw [progress_client] at hc
  cases hc
  rw [show (g.changing k (.lobby_state acc [])).client.is_open = true from h] at hopen
  cases hopen

theorem preauth_exactly_one {w : World} {valid : Bytes → Bytes → Bool} {keys : Keys}
    (he : PreauthEffect k c w valid keys g) (hready : c.Ready) :
    Xor (LobbyScheduled (s.progress k g) k) (ForceClosed (s.progress k g) k) := by
  cases he with
  | login key login acc w' hv hl => exact changing_exactly_one hready.is_open acc
  | _ => exact closing_exactly_one hready.no_transition

end sessions

/-! One session on a fresh server. -/

def quiet_outside : Outside := ⟨⟨0, 0, 0, []⟩, fun _ _ => false⟩

def one_session : Server := endState (Handler.on_accept 0).run ((Server.fresh .empty).begin quiet_outside)

theorem one_session_reachable : serverMachine.Reachable one_session := by
  have h0 : serverMachine.init (Server.fresh .empty) :=
    ⟨.empty, rfl, fun r h => absurd h List.not_mem_nil⟩
  refine (Machine.Reachable.init h0).step (e := .handler (.on_accept 0)) ⟨quiet_outside, ⟨rfl, ?_, rfl⟩, rfl⟩
  intro p hp
  cases hp

theorem one_session_receives (packet : Bytes) (h : packet.length ≤ buffer_size) :
    (Handler.on_recv 0 (.of packet) packet.length).Admitted one_session quiet_outside :=
  ⟨⟨⟨_, rfl, rfl⟩, h⟩, fun p hp => (by cases hp), rfl⟩

end tejk_it_izi
