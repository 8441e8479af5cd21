import TejkItIzi.Playing
/-!
# What a session waits for

A handler of a session ends with one continuation: a receive, a transition, or a
load of the list of characters. A session that is closed has none, and its last
task leaves it without a state for good.
-/

namespace tejk_it_izi

open ProgLib

/-! ## Counting -/

/-- The receives pending on the socket of the session. -/
def Server.receives (s : Server) (k : SessionId) : Nat := if (s.clients k).any (·.receiving) then 1 else 0

/-- The transitions queued. -/
def Server.transitions (s : Server) (k : SessionId) : Nat := s.sync_strand.count (.transition k)

/-- The final tasks queued. -/
def Server.finalizers (s : Server) (k : SessionId) : Nat := s.sync_strand.count (.finalize k)

def Task.loaded_for (k : SessionId) : Task → Bool
  | .lobby_chars_loaded j _ => j == k
  | _ => false

/-- The loads queued on the strand of the database, and their callbacks. -/
def Server.list_loads (s : Server) (k : SessionId) : Nat :=
  s.database_strand.countP (·.1 = k) + s.sync_strand.countP (Task.loaded_for k)

/-- The session `c` has one thing outstanding, or none once it is closed. -/
structure Server.OneOutstanding (s : Server) (k : SessionId) (c : MmoClient) : Prop where
  one : c.is_open = true → s.receives k + s.transitions k + s.list_loads k = 1 ∧ s.finalizers k = 0
  none_of_closed : c.is_open = false → s.receives k + s.transitions k + s.list_loads k = 0
  awaiting : s.transitions k = 1 ↔ c.state_awaiting_transition ≠ none
  loading : s.list_loads k = 1 → ∃ acc chars, c.current_state = .lobby_state acc chars
  finalizing : c.is_open = false → s.finalizers k = 1 ∨ s.finalizers k = 0 ∧ c.current_state = .null_state

section counts

variable {s s' : Server} {k : SessionId} {c : MmoClient}

theorem receives_of (hc : s.clients k = some c) : s.receives k = if c.receiving then 1 else 0 := by
  rw [Server.receives, hc, Option.any_some]

theorem count_tasks_of {t : Task} (ht : t.session = k) : s.sync_strand.count t = (s.tasks_of k).count t := by
  rw [Server.tasks_of, List.count_filter (by simpa using ht)]

theorem transitions_of : s.transitions k = (s.tasks_of k).count (.transition k) := count_tasks_of rfl

theorem finalizers_of : s.finalizers k = (s.tasks_of k).count (.finalize k) := count_tasks_of rfl

theorem list_loads_of :
    s.list_loads k = (s.loads_of k).length + (s.tasks_of k).countP (Task.loaded_for k) := by
  have htasks : (s.tasks_of k).countP (Task.loaded_for k) = s.sync_strand.countP (Task.loaded_for k) := by
    rw [Server.tasks_of, List.countP_filter]
    refine List.countP_congr fun t _ => ?_
    cases t with
    | lobby_chars_loaded j chars => by_cases hj : j = k <;> simp [Task.loaded_for, Task.session, hj]
    | _ => simp [Task.loaded_for]
  rw [Server.list_loads, htasks, List.countP_eq_length_filter]
  simp [Server.loads_of]

theorem ServerOk.one_outstanding (h : ServerOk s) (hc : s.clients k = some c) : s.OneOutstanding k c := by
  have hout := h.outstanding k c hc
  have hr := receives_of hc
  have ht := transitions_of (s := s) (k := k)
  have hl := list_loads_of (s := s) (k := k)
  have hf := finalizers_of (s := s) (k := k)
  generalize s.tasks_of k = ts at hout ht hl hf
  generalize s.loads_of k = ls at hout hl
  cases hout with
  | receive | transition | closing | closed =>
    constructor <;> simp [hr, ht, hl, hf, Task.loaded_for]
  | load acc chars | loaded acc chars =>
    constructor <;> simp [hr, ht, hl, hf, Task.loaded_for]

end counts

/-! ## One step -/

/-- What one step makes of a session: what is awaited stays until it is entered,
and what is over stays over. -/
structure MmoClient.Continues (c c' : MmoClient) : Prop where
  awaited : ∀ st, c.state_awaiting_transition = some st →
    c'.state_awaiting_transition = some st ∨ c'.state_awaiting_transition = none ∧ c'.current_state = st
  closed : c.is_open = false → c'.is_open = false
  finalised : c.is_open = false → c.current_state = .null_state → c'.current_state = .null_state

theorem MmoClient.Continues.refl (c : MmoClient) : c.Continues c := ⟨fun _ => .inl, id, fun _ => id⟩

theorem MmoClient.Continues.of_open {c c' : MmoClient} (hopen : c.is_open = true)
    (hst : c.state_awaiting_transition = none) : c.Continues c' := by
  refine ⟨fun st h => ?_, fun h => ?_, fun h => ?_⟩
  · rw [hst] at h
    cases h
  · rw [hopen] at h
    cases h
  · rw [hopen] at h
    cases h

section step

variable {s s' : Server} {k : SessionId} {c : MmoClient} {hd : Handler} {ev : ServerEvent}

theorem HandlerEffect.continues (he : HandlerEffect s hd s') (h : ServerOk s) (hc : s.clients k = some c) :
    ∃ c', s'.clients k = some c' ∧ c.Continues c' := by
  have other {s0 : Server} (h0 : s0.clients = s.clients) {j : SessionId} {g : Progress} (hk : k ≠ j) :
      ∃ c', (s0.progress j g).clients k = some c' ∧ c.Continues c' :=
    ⟨c, by rw [progress_client_ne hk, h0]; exact hc, .refl c⟩
  have own {s0 : Server} (h0 : s0.clients = s.clients) {j : SessionId} {c0 : MmoClient} (g : Progress)
      (hc0 : s.clients j = some c0) (hcont : c0.Continues g.client) :
      ∃ c', (s0.progress j g).clients k = some c' ∧ c.Continues c' := by
    by_cases hk : k = j
    · subst hk
      rw [hc] at hc0
      cases hc0
      exact ⟨g.client, progress_client, hcont⟩
    · exact other h0 hk
  have receiving {j : SessionId} {c0 c1 : MmoClient} (hc0 : s.clients j = some c0) (hr : c0.receiving = true) :
      c0.Continues c1 := by
    obtain ⟨_, _, _, hready⟩ := (h.outstanding j c0 hc0).of_receiving hr
    exact .of_open hready.is_open hready.no_transition
  cases he with
  | on_accept j hj =>
    refine other rfl ?_
    rintro rfl
    rw [hc] at hj
    cases hj
  | on_recv j data size c0 g hc0 hr => exact own rfl _ hc0 (receiving hc0 hr)
  | on_error j c0 hc0 hr => exact own rfl _ hc0 (receiving hc0 hr)
  | transition j rest c0 st w ps hs hc0 hst =>
    obtain ⟨_, _, hopen, _⟩ := (h.only_task hs hc0).1.of_transition
    refine own rfl _ hc0 ⟨fun st' h' => .inr ?_, fun h => ?_, fun h => ?_⟩
    · rw [hst] at h'
      cases h'
      cases st <;> exact ⟨rfl, rfl⟩
    · rw [hopen] at h
      cases h
    · rw [hopen] at h
      cases h
  | finalize j rest c0 w ps hs hc0 => exact own rfl _ hc0 ⟨fun st h => .inl h, id, fun _ _ => rfl⟩
  | lobby_chars_loaded j rest chars c0 acc old hs hc0 =>
    obtain ⟨_, _, _, _, rfl⟩ := (h.only_task hs hc0).1.of_loaded
    exact own rfl _ hc0 (.of_open rfl rfl)
  | load j id rest c0 hs hc0 => exact own rfl _ hc0 (.refl _)
  | periodic_broadcast | periodic_cleanup => exact ⟨c, hc, .refl c⟩

theorem session_continues (h : ServerOk s) (hs : schemaMachine.step s ev s') (hc : s.clients k = some c) :
    ∃ c', s'.clients k = some c' ∧ c.Continues c' := by
  cases ev with
  | handler hd =>
    obtain ⟨o, ha, hr⟩ := hs
    obtain ⟨hb, he⟩ := handler_effect h ha hr
    exact he.continues hb hc
  | reorder =>
    obtain ⟨w, _, _, rfl⟩ := hs
    exact ⟨c, hc, .refl c⟩

/-- A closed session stays closed, and a finalised one without a state. -/
theorem closed_for_good {tr : List (Taken Server ServerEvent)} (h : ServerOk s) (hr : schemaMachine.Run s tr s')
    (hc : s.clients k = some c) (hclosed : c.is_open = false) :
    ∃ c', s'.clients k = some c' ∧ c'.is_open = false ∧
      (c.current_state = .null_state → c'.current_state = .null_state) := by
  have hkept := Machine.Run.keeps (M := schemaMachine) (C := fun _ _ => True)
    (I := fun t => ServerOk t ∧ ∃ c', t.clients k = some c' ∧ c'.is_open = false ∧
      (c.current_state = .null_state → c'.current_state = .null_state))
    (fun t _ u hi _ hs => by
      obtain ⟨hok, c', hc', hclosed', hnull⟩ := hi
      obtain ⟨c'', hc'', hcont⟩ := session_continues hok hs hc'
      exact ⟨server_ok_step hok hs, c'', hc'', hcont.closed hclosed', fun hn => hcont.finalised hclosed' (hnull hn)⟩)
    hr (fun _ _ => trivial) ⟨h, c, hc, hclosed, id⟩
  exact hkept.2

/-- The final task of a session takes its state. -/
theorem finalize_leaves_null {o : Outside} {rest : List Task} (h : ServerOk s) (hs : s.sync_strand = .finalize k :: rest)
    (hr : Handler.next_task.run (s.begin o) = .ok () s') :
    ∃ c', s'.clients k = some c' ∧ c'.is_open = false ∧ c'.current_state = .null_state := by
  obtain ⟨s1, he, hrun⟩ := next_task_effect (h.begin o) (t := .finalize k) hs
  rw [hrun] at hr
  cases hr
  cases he with
  | transition j rest' c0 st w ps hs' => cases hs.symm.trans hs'
  | finalize j rest' c0 w ps hs' hc0 =>
    cases hs.symm.trans hs'
    obtain ⟨_, _, hclosed, _⟩ := ((h.begin o).only_task hs' hc0).1.of_finalize
    exact ⟨_, progress_client, hclosed, rfl⟩
  | lobby_chars_loaded j rest' chars c0 acc old hs' => cases hs.symm.trans hs'

/-- A handler that does not return lets an exception through, or selects a
character that clashes. -/
theorem handler_faults {o : Outside} {f : Fault} (h : ServerOk s) (ha : hd.Admitted s o)
    (hr : hd.run (s.begin o) = .error f s') :
    (∃ e, f = .exception e) ∨ f = .assertion_failed ∧ ∃ k acc chars name ch w,
      s.Executes hd k acc chars (.request_character_select name) ∧ s.seat k = .lobby acc chars ∧
      chars.find? (·.name = name) = some ch ∧ (s.begin o).world.Clash ((s.begin o).world.newcomer k ch) w := by
  have hb := h.begin o
  rcases handler_ends h ha with ⟨t, _, hrun⟩ | ⟨f', t, hdeath, hrun⟩
  · rw [hr] at hrun
    cases hrun
  cases hdeath with
  | on_recv k data size c f0 g hc hrecv hsize hdies _ =>
    rcases on_recv_run hb rfl hc hrecv ha.new_entity ha.new_room data size with ⟨hn, _⟩ | ⟨_, f1, g1, hdeath, hrun1⟩
    · exact absurd hdies hn
    · have hrun1' : (Handler.on_recv k data size).run (s.begin o) = .error f1 ((s.begin o).progress k g1) := hrun1
      rw [hr] at hrun1'
      cases hrun1'
      cases hdeath with
      | preauth e => exact .inl ⟨e, rfl⟩
      | select acc chars name ch w hst hreq hf hclash =>
        exact .inr ⟨rfl, k, acc, chars, name, ch, w, ⟨data, size, c, rfl, hc, hst, hreq⟩, h.seat_lobby hc hrecv hst, hf,
          hclash⟩
  | load k id rest c hs hc =>
    rcases next_load_effect hb rfl hs with ⟨s1, _, hrun1⟩ | ⟨e, t1, _, hrun1⟩
    · rw [hr] at hrun1
      cases hrun1
    · rw [hr] at hrun1
      cases hrun1
      exact .inl ⟨e, rfl⟩

/-- In every reachable state: an open session has exactly one thing outstanding,
and what it awaits is entered before anything else is; a closed one has nothing
outstanding, is handed no packet, and its final task leaves it without a state for
good. No handler reads a socket twice, enters a state that is not there, or brings
a list to a lobby that is gone. -/
theorem one_thing_outstanding (h : schemaMachine.Reachable s) (hc : s.clients k = some c) :
    s.OneOutstanding k c ∧
    (c.is_open = false → (∀ data size o, ¬ (Handler.on_recv k data size).Admitted s o) ∧
      ∀ tr t, schemaMachine.Run s tr t → ∃ c', t.clients k = some c' ∧ c'.is_open = false ∧
        (c.current_state = .null_state → c'.current_state = .null_state)) ∧
    (∀ o rest t, s.sync_strand = .finalize k :: rest → Handler.next_task.run (s.begin o) = .ok () t →
      ∃ c', t.clients k = some c' ∧ c'.is_open = false ∧ c'.current_state = .null_state) ∧
    (∀ ev t, schemaMachine.step s ev t → ∃ c', t.clients k = some c' ∧ c.Continues c') ∧
    ∀ (hd : Handler) o t, hd.Admitted s o → hd.run (s.begin o) ≠ .error .undefined_behaviour t := by
  have hok := schema_server_ok h
  refine ⟨hok.one_outstanding hc, fun hclosed => ⟨fun data size o ha => ?_, fun tr t hr => closed_for_good hok hr hc hclosed⟩,
    fun o rest t hs hr => finalize_leaves_null hok hs hr, fun ev t hs => session_continues hok hs hc,
    fun hd o t ha hr => ?_⟩
  · obtain ⟨⟨c', hc', hrecv⟩, _⟩ := ha.enabled
    rw [hc] at hc'
    cases hc'
    have hnone := (hok.one_outstanding hc).none_of_closed hclosed
    rw [receives_of hc, hrecv] at hnone
    simp at hnone
  · rcases handler_faults hok ha hr with ⟨e, he⟩ | ⟨he, _⟩ <;> cases he

/-- Dora's keys have been accepted. -/
theorem dora_awaits_the_lobby : ∃ tr s c, schemaMachine.Run (.fresh two_accounts) tr s ∧ s.clients 0 = some c ∧
    s.transitions 0 = 1 ∧ c.is_open = true ∧ s.OneOutstanding 0 c := by
  obtain ⟨tr, s, hr, hv, _⟩ := play_fresh [0] (fun _ => true)
    ((enters_lobby 0 (ascii "dora")).take 2) (fun s => (s.transitions 0, (s.clients 0).map (·.is_open)))
    (1, some true) two_accounts_init (by decide +kernel)
  simp only [Prod.mk.injEq, Option.map_eq_some_iff] at hv
  obtain ⟨ht, c, hc, hopen⟩ := hv
  exact ⟨tr, s, c, hr, hc, ht, hopen, (one_thing_outstanding ⟨_, tr, two_accounts_init, hr⟩ hc).1⟩

end step

end tejk_it_izi
