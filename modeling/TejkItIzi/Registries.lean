import TejkItIzi.Selections
/-!
# The registries

`world_registrar`, the friend lists and the chat each keep the characters in the
game under keys of their own. Between handlers all of them hold exactly the
characters that the states of the sessions own, and a finalised session leaves no
trace.
-/

namespace tejk_it_izi

open ProgLib

/-- An `ingame_state` of some session, current or awaited, owns the character. -/
def Server.Holds (s : Server) (p : EntityPtr) : Prop := ∃ k c, s.clients k = some c ∧ c.Holds p

/-- The registries are a mirror of the states. -/
structure Server.Mirrored (s : Server) : Prop where
  by_id : ∀ i q, s.world.registry.id_to_character i = some q ↔ s.Holds q ∧ q.id = i
  by_name : ∀ n q, s.world.registry.name_to_character n = some q ↔ s.Holds q ∧ q.name = n
  lists : ∀ i q, (∃ l, s.world.friends.friendlist_of_id i = some l ∧ l.backend = q) ↔ s.Holds q ∧ q.id = i
  entities : ∀ q, (s.world.chat.entities q).isSome ↔ s.Holds q
  one_to_one : ∀ p q, s.Holds p → s.Holds q → p.id = q.id ∨ p.name = q.name → p = q
  found : ∀ p, s.Holds p →
    world_registrar.find_online_player_by_id p.id s.world = .ok (some p) s.world ∧
    world_registrar.find_online_player_by_name p.name s.world = .ok (some p) s.world

/-- Nothing refers to a character of the session. -/
structure Server.Forgets (s : Server) (k : SessionId) : Prop where
  by_id : ∀ i q, s.world.registry.id_to_character i = some q → q.my_session ≠ k
  by_name : ∀ n q, s.world.registry.name_to_character n = some q → q.my_session ≠ k
  lists : ∀ i l, s.world.friends.friendlist_of_id i = some l → l.backend.my_session ≠ k
  entities : ∀ q, (s.world.chat.entities q).isSome → q.my_session ≠ k
  rooms : ∀ room r q, s.world.chat.rooms room = some r → q ∈ r.participants → q.my_session ≠ k

section registries

variable {s s' : Server} {k : SessionId} {c : MmoClient}

theorem ServerOk.holds_iff_online (h : ServerOk s) {p : EntityPtr} : s.Holds p ↔ s.world.online p := by
  rw [h.players p]
  constructor
  · rintro ⟨k, c, hc, hp⟩
    rw [h.own k c p hc hp]
    exact ⟨c, hc, hp⟩
  · rintro ⟨c, hc, hp⟩
    exact ⟨_, c, hc, hp⟩

theorem ServerOk.mirrored (h : ServerOk s) : s.Mirrored := by
  have hsame := h.world.friends_ok.same_players
  have hid (i : Nat) (q : EntityPtr) : s.world.registry.id_to_character i = some q ↔ s.Holds q ∧ q.id = i := by
    rw [h.holds_iff_online]
    constructor
    · intro hq
      obtain ⟨rfl, _⟩ := hsame.by_id i q hq
      exact ⟨hq, rfl⟩
    · rintro ⟨hq, rfl⟩
      exact hq
  refine ⟨hid, fun n q => ?_, fun i q => ?_, fun q => ?_, fun p q hp hq hpq => ?_, fun p hp => ?_⟩
  · rw [h.holds_iff_online]
    constructor
    · intro hq
      obtain ⟨rfl, hon⟩ := hsame.by_name n q hq
      exact ⟨hon, rfl⟩
    · rintro ⟨hq, rfl⟩
      exact (h.world.registered hq).by_name
  · rw [← hid i q]
    constructor
    · rintro ⟨l, hl, rfl⟩
      exact hsame.list_online i l hl
    · intro hq
      obtain ⟨l, hl⟩ := Option.isSome_iff_exists.1 (hsame.online_list i q hq)
      refine ⟨l, hl, ?_⟩
      have hon := hsame.list_online i l hl
      rw [hq] at hon
      exact (Option.some.inj hon).symm
  · rw [h.holds_iff_online]
    exact h.world.players q
  · obtain ⟨j, cj, hcj, hpj⟩ := hp
    obtain ⟨k, ck, hck, hqk⟩ := hq
    exact (h.held_once hcj hck hpj hqk hpq).1
  · have hreg := h.world.registered (h.holds_iff_online.1 hp)
    constructor
    · unfold world_registrar.find_online_player_by_id
      rw [get_bind, hreg.by_id]
      rfl
    · unfold world_registrar.find_online_player_by_name
      rw [get_bind, hreg.by_name]
      rfl

theorem Outstanding.closed_awaits {ts : List Task} {ls : List (SessionId × Nat)} (h : Outstanding k c ts ls)
    (hclosed : c.is_open = false) : c.state_awaiting_transition = none := by
  cases h with
  | transition => cases hclosed
  | _ => rfl

/-- A session without a state owns nobody. -/
theorem ServerOk.forgets (h : ServerOk s) (hc : s.clients k = some c) (hclosed : c.is_open = false)
    (hnull : c.current_state = .null_state) : s.Forgets k := by
  have nobody (q : EntityPtr) (hq : s.world.online q) : q.my_session ≠ k := by
    rintro rfl
    obtain ⟨c', hc', hholds⟩ := (h.players q).1 hq
    rw [hc] at hc'
    cases hc'
    have hst := (h.outstanding _ c hc).closed_awaits hclosed
    rcases hholds with hholds | ⟨st, hst', _⟩
    · rw [hnull] at hholds
      exact hholds
    · rw [hst] at hst'
      cases hst'
  have hm := h.mirrored
  have of_holds (q : EntityPtr) (hq : s.Holds q) : q.my_session ≠ k := nobody q (h.holds_iff_online.1 hq)
  refine ⟨fun i q hq => of_holds q ((hm.by_id i q).1 hq).1, fun n q hq => of_holds q ((hm.by_name n q).1 hq).1,
    fun i l hl => of_holds _ ((hm.lists i _).1 ⟨l, hl, rfl⟩).1, fun q hq => of_holds q ((hm.entities q).1 hq),
    fun room r q hr hq => of_holds q ((hm.entities q).1 (h.world.consistent.registered room r q hr hq))⟩

/-- While each account has one session: the registries mirror the states, a
session whose final task has run is forgotten, and no assertion fails. -/
theorem registries_mirror_states {s0 : Server} {tr : List (Taken Server ServerEvent)} (h0 : schemaMachine.init s0)
    (hr : schemaMachine.Run s0 tr s) (hone : ∀ x ∈ tr, x.pre.OneSessionEach) (hone' : s.OneSessionEach) :
    s.Mirrored ∧
    (∀ x ∈ tr, ∀ k rest, x.event = .handler .next_task → x.pre.sync_strand = .finalize k :: rest → s.Forgets k) ∧
    ∀ (hd : Handler) o t, hd.Admitted s o → hd.run (s.begin o) ≠ .error .assertion_failed t := by
  have hok := schema_run_ok h0 hr
  refine ⟨hok.mirrored, fun x hx k rest hev hs => ?_, fun hd o t ha => ?_⟩
  · obtain ⟨l, r, rfl⟩ := List.append_of_mem hx
    obtain ⟨u, hl, hu⟩ := Machine.run_append.1 hr
    obtain ⟨rfl, hstep, hrest⟩ := Machine.run_cons.1 hu
    have hpre := schema_run_ok h0 hl
    have hpost : ServerOk x.post := server_ok_step hpre hstep
    rw [hev] at hstep
    obtain ⟨o, _, hrun⟩ := hstep
    obtain ⟨c, hc, hclosed, hnull⟩ := finalize_leaves_null hpre hs hrun
    obtain ⟨c', hc', hclosed', hnull'⟩ := closed_for_good hpost hrest hc hclosed
    exact hok.forgets hc' hclosed' (hnull' hnull)
  · have hstored : StoredOk s := Machine.Run.keeps (M := schemaMachine) (C := fun s ev => s.TouchesIdle ev)
      (fun _ _ _ hi hc hs => stored_ok_step hi hc hs) hr (touches_idle_of_one_session h0 hr hone) (stored_ok_init h0)
    have hlists := run_lists_ok hr (lists_ok_init h0) hone
    refine hstored.no_assertion_fails (hlists.touches_idle hone' ?_) ha
    rintro _ ⟨⟩
    exact ⟨o, ha⟩

/-- Dora was in the game, and her session is over. -/
theorem dora_is_forgotten : ∃ tr s, schemaMachine.Run (.fresh two_accounts) tr s ∧
    (∃ x ∈ tr, x.pre.Holds ⟨5, 9, ascii "Dora", 0⟩) ∧ s.Mirrored ∧ s.Forgets 0 := by
  obtain ⟨tr, s, hr, hv, _, honly, hone⟩ := play_one_session_each [0]
    (enters_lobby 0 (ascii "dora") ++ [selects 0 (ascii "Dora"), .next_task, .on_error 0])
    (fun s => (s.sync_strand == [.finalize 0] && s.one_session_each [0], (s.clients 0).map (·.characters),
      s.outcome [0] (quiet 9) .next_task (·.one_session_each [0])))
    (true, some [⟨5, 9, ascii "Dora", 0⟩], some (.ok true)) two_accounts_init (by decide +kernel)
  simp only [Prod.mk.injEq, Option.map_eq_some_iff, Bool.and_eq_true, beq_iff_eq] at hv
  obtain ⟨⟨htasks, hlast⟩, ⟨c, hc, hchars⟩, hout⟩ := hv
  have hok := schema_server_ok ⟨_, tr, two_accounts_init, hr⟩
  obtain ⟨ha, s', hrun, hlast'⟩ := outcome_ok hok honly hout
  obtain ⟨hstep, _, honly'⟩ := play_handler hok honly (admits_of_outcome hout) hrun
  have hone' : ∀ x ∈ tr ++ [⟨s, .handler .next_task, s'⟩], x.pre.OneSessionEach := by
    intro x hx
    rcases List.mem_append.1 hx with hx | hx
    · exact hone x hx
    · rw [List.mem_singleton.1 hx]
      exact one_session_each_of hlast honly
  have hmem := List.mem_append_right tr (List.mem_singleton.2 (rfl : (⟨s, .handler .next_task, s'⟩ : Taken _ _) = _))
  have hall := registries_mirror_states two_accounts_init (hr.snoc hstep) hone' (one_session_each_of hlast' honly')
  refine ⟨_, s', hr.snoc hstep, ⟨_, hmem, 0, c, hc, ?_⟩, hall.1, hall.2.1 _ hmem 0 [] rfl htasks⟩
  exact mem_characters.1 (by rw [hchars]; exact List.mem_singleton.2 rfl)

end registries

end tejk_it_izi
