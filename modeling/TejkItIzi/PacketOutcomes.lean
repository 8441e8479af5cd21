import TejkItIzi.PacketSizes
/-!
# Packets that are handled inside

A packet of a session does no harm beyond it when its handler returns and every
packet it sent was written within its buffer. What ends the server and what does
not fit are the two ways out, and the only ones.
-/

namespace tejk_it_izi

open ProgLib

/-- The handler returns, and what it sent was written within the buffers; before
the login it has done one of two things. -/
def HandledInside (s : Server) (k : SessionId) (c : MmoClient) (data : Buffer) (size : Nat) : Prop :=
  ∃ s', mmoclient.on_recv k data size s = .ok () s' ∧ (∀ m ∈ s'.sent, m.packet.serialize.InBuffer) ∧
    (c.current_state = .preauth_state → Xor (LobbyScheduled s' k) (ForceClosed s' k))

/-- In every state that a run reaches whose handlers fit, for every packet of a
session that waits for one, every answer of the validator and of the database:
the packet is handled inside, unless it ends the server or does not fit. -/
theorem packet_handled_iff {s : Server} {k : SessionId} {c : MmoClient} {data : Buffer} {size : Nat} {o : Outside}
    (h : fittingMachine.Reachable s) (hc : s.clients k = some c)
    (ha : (Handler.on_recv k data size).Admitted s o) :
    HandledInside (s.begin o) k c data size ↔
      ¬ EndsServer (s.begin o) c data size ∧ (Handler.on_recv k data size).Fits buffer_size s := by
  have hok := reachable_server_ok (fitting_is_server h)
  have hb := hok.begin o
  obtain ⟨⟨c', hc', hrecv⟩, hsize⟩ := ha.enabled
  rw [hc] at hc'
  cases hc'
  obtain ⟨_, _, _, hready⟩ := (hb.outstanding k c hc).of_receiving hrecv
  rw [endsServer_iff hsize]
  rcases on_recv_run hb rfl hc hrecv ha.new_entity ha.new_room data size with ⟨hn, g, he, hrun⟩ | ⟨hd, f, g, _, hrun⟩
  · have heff : HandlerEffect (s.begin o) (.on_recv k data size) ((s.begin o).progress k g) :=
      .on_recv k data size c g hc hrecv hsize he
    constructor
    · rintro ⟨s', hs', hall, _⟩
      rw [hrun] at hs'
      cases hs'
      exact ⟨hn, fitting_of_in_buffer h heff (fun hb => by cases hb) hall⟩
    · rintro ⟨_, hf⟩
      refine ⟨_, hrun, in_buffer_of_fitting h heff hf, fun hst => ?_⟩
      cases he with
      | preauth _ _ hp => exact preauth_exactly_one hp hready
      | lobby_malformed _ _ _ h | lobby _ _ _ _ h | ingame_malformed _ _ _ h | ingame _ _ _ _ h =>
        rw [show c.current_state = _ from h] at hst
        cases hst
  · refine iff_of_false ?_ fun hno => hno.1 hd
    rintro ⟨s', hs', _⟩
    rw [hrun] at hs'
    cases hs'

theorem one_session_fitting : fittingMachine.Reachable one_session := by
  have h0 : fittingMachine.init (Server.fresh .empty) := ⟨.empty, rfl, fun r h => absurd h List.not_mem_nil⟩
  refine (Machine.Reachable.init h0).step (e := .handler (.on_accept 0))
    ⟨⟨quiet_outside, ⟨rfl, fun p hp => (by cases hp), rfl⟩, rfl⟩, ?_⟩
  rintro _ ⟨⟩
  trivial

/-- A packet with an unknown opcode is answered, and Dora joins a room with a short name. -/
theorem packets_handled :
    HandledInside (one_session.begin quiet_outside) 0 .accepted (.of [1]) 1 ∧
    HandledInside (dora_in_game.begin (outside_at 1)) 0 doras_session (.of (join_packet (ascii "hall")))
      (join_packet (ascii "hall")).length := by
  constructor
  · have hread : preauth_state.read (.of [1]) 1 = .unknown_opcode := by decide
    refine (packet_handled_iff (c := .accepted) one_session_fitting rfl (one_session_receives [1] (by decide))).2
      ⟨?_, fits_outside_game rfl (c := .accepted) (by simp [MmoClient.accepted])⟩
    rintro (h | ⟨key, login, h, _⟩)
    · cases h
    · cases hread.symm.trans h
  · exact (packet_handled_iff dora_in_game_fitting rfl (dora_in_game_receives _ (by decide))).2 ⟨id, short_room_fits⟩

/-- The empty packet ends the server. -/
theorem empty_packet_escapes : fittingMachine.Reachable one_session ∧ one_session.clients 0 = some .accepted ∧
    (Handler.on_recv 0 (.of []) 0).Admitted one_session quiet_outside ∧
    ¬ HandledInside (one_session.begin quiet_outside) 0 .accepted (.of []) 0 := by
  refine ⟨one_session_fitting, rfl, one_session_receives [] (by decide), ?_⟩
  rintro ⟨s', h, _⟩
  have hrun : mmoclient.on_recv 0 (.of []) 0 (one_session.begin quiet_outside) =
      .error (.exception .underflow_error) (endState (mmoclient.on_recv 0 (.of []) 0) (one_session.begin quiet_outside)) :=
    rfl
  rw [hrun] at h
  cases h

end tejk_it_izi
