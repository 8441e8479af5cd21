import TejkItIzi.ServerFriends
/-!
# Whispers

A whisper goes to the one session whose character has the name, if that is
another one, and nothing else makes a session hear a whisper.
-/

namespace tejk_it_izi

open ProgLib

def Packet.is_whisper : Packet → Bool
  | .whisper_message _ _ => true
  | _ => false

/-- The request a handler is for, and the character who makes it. -/
def Server.request_of (s : Server) : ServerEvent → Option (EntityPtr × IngameRequest)
  | .handler (.on_recv k data size) => (s.clients k).bind fun c =>
    match c.current_state, ingame_state_recv_packet_factory.construct data size with
    | .ingame_state p _, .ok request => some (p, request)
    | _, _ => none
  | _ => none

/-- What is whispered to session `k`: what another character asks to be whispered to
the name of one that the session has in the game. -/
def Server.whispers (s : Server) (k : SessionId) (ev : ServerEvent) : List Packet :=
  match s.request_of ev, s.clients k with
  | some (p, .send_whisper recipient message), some c =>
    if c.is_open = true ∧ ∃ q ∈ c.characters, q.name = recipient ∧ q ≠ p then [.whisper_message p.name message] else []
  | _, _ => []

section whispers

variable {s s' : Server} {hd : Handler} {k : SessionId} {ev : ServerEvent} {p : EntityPtr} {request : IngameRequest}

theorem request_of_iff (hok : ServerOk s) : s.request_of (.handler hd) = some (p, request) ↔ s.asks hd p request := by
  constructor
  · intro h
    cases hd with
    | on_recv k data size =>
      simp only [Server.request_of, Option.bind_eq_some_iff] at h
      obtain ⟨c, hc, hmatch⟩ := h
      split at hmatch
      · next p' acc request' hst hr =>
        cases hmatch
        have hk : p.my_session = k := hok.own k c p hc (.inl (by rw [hst]; rfl))
        subst hk
        exact ⟨acc, data, size, ⟨rfl, c, hc, hst⟩, hr⟩
      · cases hmatch
    | _ => cases h
  · rintro ⟨acc, data, size, ⟨rfl, c, hc, hst⟩, hr⟩
    simp only [Server.request_of, hc, Option.bind_some, hst, hr]

/-- A name in the registry is that of a character some session has in the game. -/
theorem named_iff (hok : ServerOk s) {name : Bytes} {q : EntityPtr} :
    s.world.registry.name_to_character name = some q ↔
      q.name = name ∧ ∃ c, s.clients q.my_session = some c ∧ q ∈ c.characters := by
  constructor
  · intro hq
    obtain ⟨hname, hon⟩ := hok.world.friends_ok.same_players.by_name name q hq
    obtain ⟨c, hc, hholds⟩ := (hok.players q).1 hon
    exact ⟨hname, c, hc, mem_characters.2 hholds⟩
  · rintro ⟨rfl, c, hc, hmem⟩
    exact (hok.world.friends_ok.same_players.by_id q.id q (hok.held_online hc (mem_characters.1 hmem))).2

/-- A session has those in the game whom the registry names as its own. -/
theorem named_of_session (hok : ServerOk s) {c : MmoClient} (hc : s.clients k = some c) {name : Bytes} {q : EntityPtr} :
    q ∈ c.characters ∧ q.name = name ↔ s.world.registry.name_to_character name = some q ∧ q.my_session = k := by
  rw [named_iff hok]
  constructor
  · rintro ⟨hmem, hname⟩
    have hk := hok.own k c q hc (mem_characters.1 hmem)
    exact ⟨⟨hname, c, hk ▸ hc, hmem⟩, hk⟩
  · rintro ⟨⟨hname, c', hc', hmem⟩, rfl⟩
    rw [hc] at hc'
    cases hc'
    exact ⟨hmem, hname⟩

/-- Where nobody asks to whisper, nobody hears a whisper. -/
theorem no_whispers (he : HandlerEffect s hd s') (hok : ServerOk s) (hs : s.sent = []) (hq : s.world.notices = [])
    (hno : ∀ p recipient message, ¬ s.asks hd p (.send_whisper recipient message)) :
    (s'.wire k).filter Packet.is_whisper = [] := by
  apply List.filter_eq_nil_iff.2
  intro pk hpk hwhisper
  obtain ⟨m, hm, hsent⟩ := List.mem_filterMap.1 hpk
  split at hsent
  · cases hsent
    have hcaused := he.caused hok hs hq m hm
    generalize m.packet = pk at hcaused hwhisper
    cases hcaused with
    | whisper_message p q message hasks => exact hno p q.name message hasks
    | _ => cases hwhisper
  · cases hsent

/-- Who asks to whisper is heard by the one who has the name. -/
theorem whisper_sent (he : HandlerEffect s hd s') (hs : s.sent = []) (hq : s.world.notices = [])
    {recipient message : Bytes}
    (hasks : s.asks hd p (.send_whisper recipient message)) :
    s'.wire k = match s.world.registry.name_to_character recipient with
      | some q => if q ≠ p ∧ q.my_session = k ∧ s.is_open k = true then [.whisper_message p.name message] else []
      | none => [] := by
  obtain ⟨acc, data, size, ⟨rfl, c0, hc0, hst0⟩, hr0⟩ := hasks
  cases he with
  | on_recv _ _ _ c g hc hr hsize he =>
    obtain rfl := Option.some.inj (hc0.symm.trans hc)
    rw [wire_progress hs]
    cases he with
    | ingame p' acc' request _ hst hr' hl =>
      cases hst0.symm.trans hst
      cases hr0.symm.trans hr'
      cases hl with
      | chat request op c' ns hop hperm hef =>
        cases hop
        cases hef with
        | whisper_lost _ _ _ hlost =>
          have hmails : (s.world.after s.world.chat []).mails = [] := by simp [World.mails, hq]
          simp only [Progress.waiting, hmails, addressed_nil, ite_self]
          cases hname : s.world.registry.name_to_character recipient with
          | none => rfl
          | some q => simp [hlost q hname]
        | whisper _ _ _ q hname hne =>
          have hmails : (s.world.after s.world.chat [(q, .whisper_message p.name message)]).mails =
              [(q.my_session, .whisper_message p.name message)] := by simp [World.mails, hq]
          simp only [Progress.waiting, hmails, hname]
          by_cases hk : q.my_session = k
          · subst hk
            simp [hne]
          · simp [addressed, hk]
      | friends request op w' hop | friends_fail request op e w' hop => cases hop
    | preauth _ hst => cases hst0.symm.trans hst
    | lobby acc' chars request _ hst => cases hst0.symm.trans hst
    | lobby_malformed _ _ _ hst => cases hst0.symm.trans hst
    | ingame_malformed _ _ _ hst hr' => cases hr0.symm.trans hr'

/-- The registry finds the session. -/
theorem whispers_of_request (hok : ServerOk s) {recipient message : Bytes}
    (hreq : s.request_of ev = some (p, .send_whisper recipient message)) :
    s.whispers k ev = match s.world.registry.name_to_character recipient with
      | some q => if q ≠ p ∧ q.my_session = k ∧ s.is_open k = true then [.whisper_message p.name message] else []
      | none => [] := by
  simp only [Server.whispers, hreq]
  cases hc : s.clients k with
  | none =>
    have hclosed : s.is_open k = false := by rw [Server.is_open, hc]
    simp only [hclosed, Bool.false_eq_true, and_false, if_false]
    split <;> rfl
  | some c =>
    rw [← is_open_of hc]
    cases hname : s.world.registry.name_to_character recipient with
    | none =>
      refine if_neg ?_
      rintro ⟨_, q, hmem, hq, _⟩
      have hsome := ((named_of_session hok hc).1 ⟨hmem, hq⟩).1
      rw [hname] at hsome
      cases hsome
    | some q =>
      have hiff : (c.is_open = true ∧ ∃ q ∈ c.characters, q.name = recipient ∧ q ≠ p) ↔
          q ≠ p ∧ q.my_session = k ∧ c.is_open = true := by
        constructor
        · rintro ⟨hopen, q', hmem, hq', hne⟩
          obtain ⟨hsome, hk⟩ := (named_of_session hok hc).1 ⟨hmem, hq'⟩
          rw [hname] at hsome
          cases hsome
          exact ⟨hne, hk, hopen⟩
        · rintro ⟨hne, hk, hopen⟩
          obtain ⟨hmem, hq⟩ := (named_of_session hok hc).2 ⟨hname, hk⟩
          exact ⟨hopen, q, hmem, hq, hne⟩
      simp only [hiff]

theorem is_whisper_of_mem {pk : Packet} (h : pk ∈ s.whispers k ev) : pk.is_whisper = true := by
  unfold Server.whispers at h
  split at h
  · split at h
    · rw [List.mem_singleton.1 h]
      rfl
    · cases h
  · cases h

theorem whispers_of_no_request (hok : ServerOk s)
    (hno : ∀ p recipient message, ¬ s.asks hd p (.send_whisper recipient message)) :
    s.whispers k (.handler hd) = [] := by
  unfold Server.whispers
  split
  · next p recipient message c hreq hc => exact absurd ((request_of_iff hok).1 hreq) (hno p recipient message)
  · rfl

theorem whispers_step (hok : ServerOk s) (hs : serverMachine.step s ev s') (k : SessionId) :
    (s'.wire k).filter Packet.is_whisper = s.whispers k ev := by
  cases ev with
  | handler hd =>
    obtain ⟨o, ha, hr⟩ := hs
    obtain ⟨hb, he⟩ := handler_effect hok ha hr
    by_cases hasks : ∃ p recipient message, s.asks hd p (.send_whisper recipient message)
    · obtain ⟨p, recipient, message, hasks⟩ := hasks
      have hwire : s'.wire k = s.whispers k (.handler hd) := by
        rw [whisper_sent he rfl rfl hasks, whispers_of_request hok ((request_of_iff hok).2 hasks)]
        rfl
      rw [hwire]
      exact List.filter_eq_self.2 fun pk => is_whisper_of_mem
    · have hno : ∀ p recipient message, ¬ s.asks hd p (.send_whisper recipient message) :=
        fun p recipient message h => hasks ⟨p, recipient, message, h⟩
      rw [no_whispers he hb rfl rfl hno, whispers_of_no_request hok hno]
  | reorder =>
    obtain ⟨w, _, _, rfl⟩ := hs
    rfl

/-- Over every run whose packets fit: the whispers written for a session are, each
once and in order, those that other characters in the game asked to send to the name
of the character whom the session then had in the game. -/
theorem whispers_delivered {s0 : Server} {tr : List (Taken Server ServerEvent)} (h0 : fittingMachine.init s0)
    (h : fittingMachine.Run s0 tr s) (k : SessionId) :
    (tr.flatMap fun x => x.post.wire k).filter Packet.is_whisper = tr.flatMap fun x => x.pre.whispers k x.event := by
  have hrun : serverMachine.Run s0 tr s := h.of_steps fun _ _ hs => hs.1
  have hstart : serverMachine.Reachable s0 := .init h0
  rw [List.filter_flatMap]
  refine List.flatMap_congr fun x hx => ?_
  exact whispers_step (reachable_server_ok (hrun.reachable_pre hstart hx)) (hrun.step_of_mem hx) k

end whispers

/-- Dora whispers to Eve, whose client is written to. -/
theorem eve_hears : ∃ tr s, fittingMachine.Run (.fresh two_players) tr s ∧
    s.wire 1 = [.whisper_message (ascii "Dora") (ascii "hi")] ∧
    (tr.flatMap fun x => x.post.wire 1).filter Packet.is_whisper = tr.flatMap fun x => x.pre.whispers 1 x.event := by
  obtain ⟨tr, s, hr, hwire, _⟩ := play_fresh_fitting [0, 1]
    (both_enter ++ [from_client 0 (ingame_state_protocol.send_whisper :: packed (ascii "Eve") ++ packed (ascii "hi"))])
    (fun s => s.wire 1) [.whisper_message (ascii "Dora") (ascii "hi")] two_players_init (by decide +kernel)
    (by decide +kernel)
  exact ⟨tr, s, hr, hwire, whispers_delivered (schema_init_server two_players_init) hr 1⟩

end tejk_it_izi
