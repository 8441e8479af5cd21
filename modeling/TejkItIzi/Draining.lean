import Mathlib.Algebra.Order.BigOperators.Group.List
import Mathlib.Data.Fintype.EquivFin
import TejkItIzi.Lib.Potentials
import TejkItIzi.Playing
/-!
# The server comes to rest

Nothing runs on the strands unless a session was accepted or a packet came, and
of each only a few handlers follow: a packet can post a transition, this a load,
and the load its callback; then the session waits again. Once the connections
fail and no new ones come, the server gives everything back.
-/

namespace tejk_it_izi

open ProgLib

/-! ## Work -/

/-- How many handlers can follow if no packet comes: the task itself, and what it
posts, up to the end of the session. -/
def Task.work : Task → Nat
  | .transition _ => 5
  | .lobby_chars_loaded _ _ => 3
  | .finalize _ => 1

/-- The same of a session. -/
def MmoClient.work (c : MmoClient) (ts : List Task) (ls : List (SessionId × Nat)) : Nat :=
  (if c.receiving then 2 else 0) + (ts.map Task.work).sum + 4 * ls.length

/-- A session that is still to begin will wait for a packet. -/
def Server.work (s : Server) (k : SessionId) : Nat :=
  match s.clients k with
  | none => 2
  | some c => c.work (s.tasks_of k) (s.loads_of k)

/-- The handler is one of session `k`, other than for a packet. -/
def Server.runs_for (s : Server) (k : SessionId) : ServerEvent → Bool
  | .handler (.on_error j) => j = k
  | .handler .next_task => s.sync_strand.head?.any fun t => t.session = k
  | .handler .next_load => s.database_strand.head?.any fun l => l.1 = k
  | _ => false

/-- A packet comes for session `k`. -/
def ServerEvent.receives (k : SessionId) : ServerEvent → Bool
  | .handler (.on_recv j _ _) => j = k
  | _ => false

section work

variable {s s0 : Server} {j k : SessionId} {c : MmoClient} {g : Progress}

theorem work_at (hc : s.clients k = some c) : s.work k = c.work (s.tasks_of k) (s.loads_of k) := by
  simp [Server.work, hc]

theorem Outstanding.work_le {ts : List Task} {ls : List (SessionId × Nat)} (h : Outstanding k c ts ls) :
    c.work ts ls ≤ 5 := by
  cases h <;> simp [MmoClient.work, Task.work]

theorem ServerOk.work_le (h : ServerOk s) (k : SessionId) : s.work k ≤ 5 := by
  cases hc : s.clients k with
  | none => simp [Server.work, hc]
  | some c =>
    rw [work_at hc]
    exact (h.outstanding k c hc).work_le

/-- The work of a session is what the server has for it. -/
theorem work_same (hclients : s0.clients k = s.clients k) (htasks : s0.tasks_of k = s.tasks_of k)
    (hloads : s0.loads_of k = s.loads_of k) : s0.work k = s.work k := by
  rw [Server.work, Server.work, hclients, htasks, hloads]

theorem loads_of_progress : (s.progress j g).loads_of k = s.loads_of k ++ g.loads.filter (·.1 = k) :=
  List.filter_append ..

/-- A handler of another session. -/
theorem work_others (hk : k ≠ j) (htasks : ∀ t ∈ g.tasks, t.session = j) (hloads : ∀ l ∈ g.loads, l.1 = j) :
    (s.progress j g).work k = s.work k := by
  apply work_same (progress_client_ne hk)
  · rw [tasks_of_progress, List.filter_eq_nil_iff.2 fun t ht => by simp [htasks t ht, Ne.symm hk], List.append_nil]
  · rw [loads_of_progress, List.filter_eq_nil_iff.2 fun l hl => by simp [hloads l hl, Ne.symm hk], List.append_nil]

/-- A handler of the session itself. -/
theorem work_own (htasks : ∀ t ∈ g.tasks, t.session = k) (hloads : ∀ l ∈ g.loads, l.1 = k) :
    (s.progress k g).work k = g.client.work (s.tasks_of k ++ g.tasks) (s.loads_of k ++ g.loads) := by
  rw [work_at progress_client, tasks_of_progress, loads_of_progress]
  congr 2
  · exact List.filter_eq_self.2 fun t ht => by simp [htasks t ht]
  · exact List.filter_eq_self.2 fun l hl => by simp [hloads l hl]

/-- The other sessions have the same work when the first task is taken. -/
theorem work_rest {t : Task} {rest : List Task} (hs : s.sync_strand = t :: rest) (hk : k ≠ t.session) :
    ({ s with sync_strand := rest } : Server).work k = s.work k :=
  work_same rfl (tasks_of_rest hs hk) rfl

theorem work_rest_load {l : SessionId × Nat} {rest : List (SessionId × Nat)} (hs : s.database_strand = l :: rest)
    (hk : k ≠ l.1) : ({ s with database_strand := rest } : Server).work k = s.work k :=
  work_same rfl rfl (loads_of_rest hs hk)

end work

/-! ## One step -/

section step

variable {s s' : Server} {k : SessionId} {hd : Handler} {ev : ServerEvent} {c : MmoClient} {g : Progress}

/-- A session that waits has two handlers before it, its failure and its end. -/
theorem ServerOk.work_receiving (h : ServerOk s) (hc : s.clients k = some c) (hr : c.receiving = true) :
    s.work k = 2 ∧ s.tasks_of k = [] ∧ s.loads_of k = [] := by
  obtain ⟨ht, hl, _⟩ := (h.outstanding k c hc).of_receiving hr
  refine ⟨?_, ht, hl⟩
  rw [work_at hc, ht, hl]
  simp [MmoClient.work, hr]

/-- The handler of the first task leaves its session less to do. -/
theorem work_task {t : Task} {rest : List Task} (h : ServerOk s) (hs : s.sync_strand = t :: rest)
    (hc : s.clients t.session = some c) (htasks : g.tasks = []) (hloads : ∀ l ∈ g.loads, l.1 = t.session)
    (hwork : g.client.work [] g.loads < t.work) (k : SessionId) :
    (decide (t.session = k)).toNat + (({ s with sync_strand := rest } : Server).progress t.session g).work k ≤
      s.work k := by
  by_cases hk : k = t.session
  · subst hk
    obtain ⟨hout, ht, hl⟩ := h.only_task hs hc
    have hpre : t.work ≤ s.work t.session := by
      rw [work_at hc, tasks_of_cons hs, MmoClient.work, List.map_cons, List.sum_cons]
      omega
    rw [work_own (by simp [htasks]) hloads, ht, htasks,
      show ({ s with sync_strand := rest } : Server).loads_of t.session = [] from hl, decide_eq_true rfl]
    simp only [List.nil_append, Bool.toNat_true]
    omega
  · rw [work_others hk (by simp [htasks]) hloads, work_rest hs hk, decide_eq_false (Ne.symm hk)]
    simp

/-- Only a packet makes work for its session, and no more than for three handlers. -/
theorem HandlerEffect.pays (he : HandlerEffect s hd s') (h : ServerOk s) (h' : ServerOk s')
    (hnew : ∀ p, (s.world.chat.entities p).isSome → p.address ≠ s.world.env.new_entity) (k : SessionId) :
    (s.runs_for k (.handler hd)).toNat + s'.work k ≤ s.work k + 3 * (ServerEvent.receives k (.handler hd)).toNat := by
  cases he with
  | on_accept j hj =>
    obtain ⟨ht, hl⟩ := h.unknown j hj
    simp only [Server.runs_for, ServerEvent.receives, Bool.toNat_false, Nat.zero_add, Nat.mul_zero, Nat.add_zero]
    by_cases hk : k = j
    · subst hk
      rw [work_own (by simp [Progress.start]) (by simp [Progress.start]), ht, hl]
      simp [Server.work, hj, Progress.start, MmoClient.accepted, MmoClient.work]
    · rw [work_others hk (by simp [Progress.start]) (by simp [Progress.start])]
  | on_recv j data size c g hc hr hsize he =>
    simp only [Server.runs_for, ServerEvent.receives, Bool.toNat_false, Nat.zero_add]
    by_cases hk : k = j
    · subst hk
      have hpre := (h.work_receiving hc hr).1
      have hpost := h'.work_le k
      rw [decide_eq_true rfl, Bool.toNat_true]
      omega
    · have hg := he.settled (h.outstanding j c hc) hr (h.owns hc) h.world hnew
      rw [work_others hk hg.tasks hg.loads]
      omega
  | on_error j c hc hr =>
    have htasks : ∀ t ∈ [Task.finalize j], t.session = j := by simp [Task.session]
    simp only [Server.runs_for, ServerEvent.receives, Bool.toNat_false, Nat.mul_zero, Nat.add_zero]
    by_cases hk : k = j
    · subst hk
      obtain ⟨hpre, ht, hl⟩ := h.work_receiving hc hr
      rw [hpre, work_own htasks (by simp [Progress.closing, Progress.start]), ht, hl]
      simp [Progress.closing, Progress.start, MmoClient.work, Task.work]
    · rw [work_others hk htasks (by simp [Progress.closing, Progress.start]), decide_eq_false (Ne.symm hk)]
      simp
  | transition j rest c st w ps hs hc hst hd =>
    obtain ⟨_, hrecv, _⟩ := h.follows hs hc hst
    simp only [Server.runs_for, hs, List.head?_cons, Option.any_some, ServerEvent.receives, Bool.toNat_false,
      Nat.mul_zero, Nat.add_zero]
    refine work_task h hs hc (by simp) ?_ ?_ k
    · cases st <;> simp [Progress.started, Progress.waiting, Task.session]
    · cases st <;> simp [Progress.started, Progress.waiting, MmoClient.work, MmoClient.entered, Task.work, hrecv]
  | finalize j rest c w ps hs hc hd =>
    obtain ⟨_, _, _, hrecv, _⟩ := (h.only_task hs hc).1.of_finalize
    simp only [Server.runs_for, hs, List.head?_cons, Option.any_some, ServerEvent.receives, Bool.toNat_false,
      Nat.mul_zero, Nat.add_zero]
    exact work_task h hs hc rfl (by simp) (by simp [MmoClient.work, hrecv, Task.work]) k
  | lobby_chars_loaded j rest chars c acc old hs hc =>
    simp only [Server.runs_for, hs, List.head?_cons, Option.any_some, ServerEvent.receives, Bool.toNat_false,
      Nat.mul_zero, Nat.add_zero]
    exact work_task h hs hc rfl (by simp [Progress.waiting]) (by simp [MmoClient.work, Progress.waiting, Task.work]) k
  | load j id rest c hs hc =>
    obtain ⟨ht, hl, acc, old, _, rfl⟩ := h.only_load hs hc
    have htasks : ∀ t ∈ [Task.lobby_chars_loaded j (s.world.db.get_lobby_chars id)], t.session = j := by
      simp [Task.session]
    simp only [Server.runs_for, hs, List.head?_cons, Option.any_some, ServerEvent.receives, Bool.toNat_false,
      Nat.mul_zero, Nat.add_zero]
    by_cases hk : k = j
    · subst hk
      have hpre : 4 ≤ s.work k := by
        rw [work_at hc]
        simp [MmoClient.work, Server.loads_of, hs]
        omega
      rw [work_own htasks (by simp), decide_eq_true rfl,
        show ({ s with database_strand := rest } : Server).tasks_of k = [] from ht, hl]
      simpa [MmoClient.work, Task.work] using hpre
    · rw [work_others hk htasks (by simp), work_rest_load hs hk, decide_eq_false (Ne.symm hk)]
      simp
  | periodic_broadcast c ns he | periodic_cleanup w he =>
    exact le_of_eq (by simp [Server.runs_for, ServerEvent.receives]; rfl)

theorem pays_step (h : ServerOk s) (hs : serverMachine.step s ev s') (k : SessionId) :
    (s.runs_for k ev).toNat + s'.work k ≤ s.work k + 3 * (ServerEvent.receives k ev).toNat := by
  have h' := server_ok_step h hs
  cases ev with
  | handler hd =>
    obtain ⟨o, ha, hr⟩ := hs
    obtain ⟨hb, he⟩ := handler_effect h ha hr
    exact he.pays hb h' ha.new_entity k
  | reorder =>
    obtain ⟨w, _, _, rfl⟩ := hs
    exact le_of_eq (by simp [Server.runs_for, ServerEvent.receives]; rfl)

end step

/-- Over a whole run, whatever the other sessions do: a session has at most two
handlers of its own, and three more for each packet that came for it. -/
theorem handlers_per_packet {s t : Server} {tr : List (Taken Server ServerEvent)} (h0 : serverMachine.init s)
    (h : serverMachine.Run s tr t) (k : SessionId) :
    tr.countP (fun x => x.pre.runs_for k x.event) ≤ 2 + 3 * tr.countP fun x => x.event.receives k := by
  have hstart : s.work k = 2 := by
    obtain ⟨db, rfl, _⟩ := h0
    rfl
  have hpays : tr.countP (fun x => x.pre.runs_for k x.event) + t.work k ≤
      s.work k + 3 * tr.countP fun x => x.event.receives k :=
    And.right <| h.pays (I := ServerOk) (C := fun _ _ => True) (v := fun s => s.work k)
      (fun _ _ _ hok _ hs => ⟨server_ok_step hok hs, pays_step hok hs k⟩) (fun _ _ => trivial) (server_ok_init h0)
  omega

theorem two_accounts_start : serverMachine.init (.fresh two_accounts) := schema_init_server two_accounts_init

/-- Dora's login, the first load and its callback. -/
theorem dora_logs_in : ∃ tr s, serverMachine.Run (.fresh two_accounts) tr s ∧
    tr.map (·.event) = (enters_lobby 0 (ascii "dora")).map .handler ∧
    tr.countP (fun x => x.pre.runs_for 0 x.event) ≤ 5 := by
  obtain ⟨tr, s, hr, _, hevents, _⟩ := play_fresh [0] (fun _ => true) (enters_lobby 0 (ascii "dora")) (fun _ => ()) ()
    two_accounts_init (by decide +kernel)
  have hrun : serverMachine.Run (.fresh two_accounts) tr s := hr.of_steps fun _ _ h => h
  have hone : tr.countP (fun x => x.event.receives 0) = 1 := by
    have hmap : (tr.map (·.event)).countP (·.receives 0) = tr.countP fun x => x.event.receives 0 := by
      rw [List.countP_map]
      rfl
    rw [← hmap, hevents]
    rfl
  have hbound := handlers_per_packet two_accounts_start hrun 0
  rw [hone] at hbound
  exact ⟨tr, s, hrun, hevents, hbound⟩

/-! ## Nothing to do -/

/-- Nothing is posted, and no packet is waited for. -/
def Server.Idle (s : Server) : Prop := s.sync_strand = [] ∧ s.database_strand = [] ∧ ∀ k, ¬ s.receiving k

/-- Every session has ended, and the world is that of a server just started on
the database, but for requests that are still remembered. -/
structure Server.Drained (s : Server) : Prop where
  ended : ∀ k c, s.clients k = some c → ∃ status, c = ⟨.null_state, none, status, false, false⟩
  idle : s.Idle
  registry : s.world.registry = (World.fresh s.world.db).registry
  friend_lists : s.world.friends.friendlist_of_id = (World.fresh s.world.db).friends.friendlist_of_id
  chat : s.world.chat = (World.fresh s.world.db).chat

section idle

variable {w : World}

/-- When nobody is in the game, nothing of the world is left. -/
theorem WorldOk.nobody (h : WorldOk w) (hnobody : ∀ p, ¬ w.online p) :
    w.registry = (World.fresh w.db).registry ∧
      w.friends.friendlist_of_id = (World.fresh w.db).friends.friendlist_of_id ∧ w.chat = (World.fresh w.db).chat := by
  have hplayers := h.friends_ok.same_players
  have hid (i : Nat) : w.registry.id_to_character i = none := by
    rw [Option.eq_none_iff_forall_ne_some]
    intro p hp
    obtain ⟨rfl, _⟩ := hplayers.by_id i p hp
    exact hnobody p hp
  have hname (n : Bytes) : w.registry.name_to_character n = none := by
    rw [Option.eq_none_iff_forall_ne_some]
    intro p hp
    exact hnobody p (hplayers.by_name n p hp).2
  have hlist (i : Nat) : w.friends.friendlist_of_id i = none := by
    rw [Option.eq_none_iff_forall_ne_some]
    intro l hl
    have hon := hplayers.list_online i l hl
    rw [hid] at hon
    cases hon
  have hentity (p : EntityPtr) : w.chat.entities p = none := by
    rw [← Option.not_isSome_iff_eq_none]
    intro hp
    exact hnobody p ((h.players p).1 hp)
  have hroom (room : RoomPtr) : w.chat.rooms room = none := by
    rw [Option.eq_none_iff_forall_ne_some]
    intro r hr
    -- A room has a participant, who is in the game.
    obtain ⟨p, hp⟩ := h.consistent.no_empty_room room r hr
    have hsome := h.consistent.registered room r p hr hp
    rw [hentity] at hsome
    cases hsome
  have hactive : w.chat.active_chatrooms = ∅ := by
    apply AList.ext
    apply List.eq_nil_iff_forall_not_mem.2
    rintro ⟨name, room⟩ hmem
    obtain ⟨r, hr, _⟩ := h.consistent.stored name room (AList.mem_lookup_iff.2 hmem)
    rw [hroom] at hr
    cases hr
  refine ⟨?_, funext hlist, ?_⟩
  · calc w.registry = ⟨w.registry.id_to_character, w.registry.name_to_character⟩ := rfl
      _ = ⟨fun _ => none, fun _ => none⟩ := by rw [funext hid, funext hname]
  · calc w.chat = ⟨w.chat.entities, w.chat.active_chatrooms, w.chat.rooms⟩ := rfl
      _ = ⟨fun _ => none, ∅, fun _ => none⟩ := by rw [funext hentity, hactive, funext hroom]

variable {s s' : Server} {k : SessionId} {ids : List SessionId} {o : Outside} {hd : Handler}

/-- A server with nothing to do has given everything back. -/
theorem ServerOk.drained (h : ServerOk s) (hidle : s.Idle) : s.Drained := by
  obtain ⟨hsync, hdb, hrecv⟩ := hidle
  have hended (k : SessionId) (c : MmoClient) (hc : s.clients k = some c) :
      ∃ status, c = ⟨.null_state, none, status, false, false⟩ := by
    have hout := h.outstanding k c hc
    rw [Server.tasks_of, Server.loads_of, hsync, hdb, List.filter_nil, List.filter_nil] at hout
    cases hout with
    | receive st status => exact absurd ⟨_, hc, rfl⟩ (hrecv k)
    | closed status => exact ⟨status, rfl⟩
  have hnobody (p : EntityPtr) : ¬ s.world.online p := by
    intro hp
    obtain ⟨c, hc, hholds⟩ := (h.players p).1 hp
    obtain ⟨status, rfl⟩ := hended _ c hc
    exact (holds_single.1 hholds).elim
  obtain ⟨hregistry, hlists, hchat⟩ := h.world.nobody hnobody
  exact ⟨hended, ⟨hsync, hdb, hrecv⟩, hregistry, hlists, hchat⟩

/-- The allocator hands out free addresses, and the database answers. -/
structure Outside.Serves (o : Outside) (s : Server) : Prop where
  new_entity : ∀ p, (s.world.chat.entities p).isSome → p.address ≠ o.env.new_entity
  new_room : s.world.chat.rooms o.env.new_room = none
  answers : o.env.db_outcomes = []

/-- What runs without new connections and packets. -/
def Handler.winds : Handler → Bool
  | .on_error _ | .next_task | .next_load => true
  | _ => false

def ServerEvent.winds : ServerEvent → Bool
  | .handler hd => hd.winds
  | .reorder => false

/-- A new connection, or a packet. -/
def ServerEvent.from_network : ServerEvent → Bool
  | .handler (.on_accept _) | .handler (.on_recv _ _ _) => true
  | _ => false

/-- There are always free addresses. -/
theorem exists_serves (h : ServerOk s) (honly : s.Only ids) : ∃ o : Outside, o.Serves s := by
  let characters := ids.flatMap fun k => (s.clients k).toList.flatMap MmoClient.characters
  obtain ⟨entity, hentity⟩ := Infinite.exists_notMem_finset (characters.map (·.address)).toFinset
  obtain ⟨room, hroom⟩ := Infinite.exists_notMem_finset (s.world.chat.active_chatrooms.entries.map (·.2)).toFinset
  rw [List.mem_toFinset, List.mem_map] at hentity hroom
  refine ⟨⟨⟨0, room, entity, []⟩, fun _ _ => false⟩, ?_, ?_, rfl⟩
  · intro p hp haddress
    obtain ⟨c, hc, hholds⟩ := (h.players p).1 ((h.world.players p).1 hp)
    have hmem : p ∈ characters :=
      List.mem_flatMap.2 ⟨_, honly.mem hc, List.mem_flatMap.2 ⟨c, by simp [hc], mem_characters.2 hholds⟩⟩
    exact hentity ⟨p, hmem, haddress⟩
  · rw [Option.eq_none_iff_forall_ne_some]
    intro r hr
    have hl := h.world.consistent.active room r hr
    exact hroom ⟨⟨_, room⟩, AList.mem_lookup_iff.1 hl, rfl⟩

theorem next_load_run {l : SessionId × Nat} {rest : List (SessionId × Nat)} (hs : s.database_strand = l :: rest) :
    Handler.next_load.run s = load_lobby_chars l.1 l.2 { s with database_strand := rest } := by
  rw [Handler.run, get_bind, hs]
  rfl

/-- While the database answers, the first load is made. -/
theorem next_load_returns (ha : s.world.db_answer = none) {l : SessionId × Nat} {rest : List (SessionId × Nat)}
    (hs : s.database_strand = l :: rest) : ∃ s', Handler.next_load.run s = .ok () s' := by
  have hchars : psql_facade.get_lobby_chars l.2 s.world =
      .ok (s.world.db.get_lobby_chars l.2) (s.world.executed (.lobby_chars l.2)) :=
    bind_ok (psql_facade.exec_ok ha _) _
  rw [next_load_run hs]
  exact ⟨_, (bind_ok (in_world_ok (s := { s with database_strand := rest }) hchars) _).trans rfl⟩

/-- A server that has something to do goes on. -/
theorem ServerOk.goes_on (h : ServerOk s) (hidle : ¬ s.Idle) :
    ∃ hd : Handler, hd.winds = true ∧
      ∀ o : Outside, o.Serves s → hd.Admitted s o ∧ ∃ s', hd.run (s.begin o) = .ok () s' := by
  cases hsync : s.sync_strand with
  | cons t rest =>
    refine ⟨.next_task, rfl, ?_⟩
    intro o ho
    obtain ⟨s', _, hrun⟩ := next_task_effect (h.begin o) hsync
    exact ⟨⟨by simp [hsync], ho.new_entity, ho.new_room⟩, s', hrun⟩
  | nil =>
    cases hdb : s.database_strand with
    | cons l rest =>
      refine ⟨.next_load, rfl, ?_⟩
      intro o ho
      have ha : (s.begin o).world.db_answer = none := by
        show o.env.db_outcomes.head?.join = none
        rw [ho.answers]
        rfl
      exact ⟨⟨by simp [hdb], ho.new_entity, ho.new_room⟩, next_load_returns ha hdb⟩
    | nil =>
      have hrecv : ∃ k, s.receiving k := by
        by_contra hnone
        exact hidle ⟨hsync, hdb, fun k hk => hnone ⟨k, hk⟩⟩
      obtain ⟨k, hk⟩ := hrecv
      refine ⟨.on_error k, rfl, ?_⟩
      intro o ho
      have hadm : (Handler.on_error k).Admitted s o := ⟨hk, ho.new_entity, ho.new_room⟩
      refine ⟨hadm, ?_⟩
      rcases handler_ends h hadm with ⟨s', _, hrun⟩ | ⟨f, t, hdeath, _⟩
      · exact ⟨s', hrun⟩
      · cases hdeath

/-- Whatever runs so is of a session that has begun. -/
theorem ServerOk.winds_for (h : ServerOk s) (ha : hd.Admitted s o) (hw : hd.winds = true) :
    ∃ k c, s.clients k = some c ∧ s.runs_for k (.handler hd) = true := by
  have henabled := ha.enabled
  cases hd with
  | on_error k =>
    obtain ⟨c, hc, _⟩ := henabled
    exact ⟨k, c, hc, decide_eq_true rfl⟩
  | next_task =>
    cases hs : s.sync_strand with
    | nil => exact absurd hs henabled
    | cons t rest =>
      obtain ⟨c, hc, _⟩ := h.of_task hs
      exact ⟨_, c, hc, by simp [Server.runs_for, hs]⟩
  | next_load =>
    cases hs : s.database_strand with
    | nil => exact absurd hs henabled
    | cons l rest =>
      obtain ⟨c, hc⟩ := h.known (k := l.1) (.inr (by simp [Server.loads_of, hs]))
      exact ⟨_, c, hc, by simp [Server.runs_for, hs]⟩
  | _ => cases hw

theorem winds_not_network {ev : ServerEvent} (h : ev.winds = true) : ev.from_network = false := by
  cases ev with
  | handler hd => cases hd <;> first | rfl | cases h
  | reorder => rfl

/-- Without new connections and packets the work of all sessions goes down with
each handler that winds the server down, and the timers leave it alone. -/
theorem wind_step {ev : ServerEvent} (h : ServerOk s) (honly : s.Only ids) (hnet : ev.from_network = false)
    (hs : serverMachine.step s ev s') :
    s'.Only ids ∧ ev.winds.toNat + (ids.map s'.work).sum ≤ (ids.map s.work).sum := by
  have hreceives (k : SessionId) : ev.receives k = false := by
    cases ev with
    | handler hd => cases hd <;> first | rfl | cases hnet
    | reorder => rfl
  have hpays (k : SessionId) : (s.runs_for k ev).toNat + s'.work k ≤ s.work k := by
    have hk := pays_step h hs k
    rwa [hreceives k, Bool.toNat_false, Nat.mul_zero, Nat.add_zero] at hk
  have hle : ∀ k ∈ ids, s'.work k ≤ s.work k := fun k _ => le_trans (Nat.le_add_left _ _) (hpays k)
  cases ev with
  | handler hd =>
    obtain ⟨o, ha, hr⟩ := hs
    obtain ⟨hb, he⟩ := handler_effect h ha hr
    refine ⟨he.only honly ?_, ?_⟩
    · rintro k rfl
      cases hnet
    · cases hw : ServerEvent.winds (.handler hd) with
      | true =>
        obtain ⟨k, c, hc, hk⟩ := h.winds_for ha hw
        have hlt : s'.work k < s.work k := by
          have hpay := hpays k
          rw [hk, Bool.toNat_true] at hpay
          omega
        have hsum := List.sum_lt_sum s'.work s.work hle ⟨k, honly.mem hc, hlt⟩
        rw [Bool.toNat_true]
        omega
      | false =>
        rw [Bool.toNat_false, Nat.zero_add]
        exact List.sum_le_sum hle
  | reorder =>
    obtain ⟨w, _, _, rfl⟩ := hs
    refine ⟨honly, ?_⟩
    rw [ServerEvent.winds, Bool.toNat_false, Nat.zero_add]
    exact List.sum_le_sum hle

theorem ServerOk.total_work_le (h : ServerOk s) (ids : List SessionId) : (ids.map s.work).sum ≤ 5 * ids.length := by
  induction ids with
  | nil => exact le_refl _
  | cons k ids ih =>
    have hk := h.work_le k
    rw [List.map_cons, List.sum_cons, List.length_cons]
    omega

/-- So there are few such handlers in a run. -/
theorem wind_run {t : Server} {tr : List (Taken Server ServerEvent)} (hok : ServerOk s) (honly : s.Only ids)
    (h : serverMachine.Run s tr t) (hnet : ∀ x ∈ tr, x.event.from_network = false) :
    ServerOk t ∧ tr.countP (fun x => x.event.winds) ≤ 5 * ids.length := by
  have hpays : (ServerOk t ∧ t.Only ids) ∧ tr.countP (fun x => x.event.winds) + (ids.map t.work).sum ≤
      (ids.map s.work).sum + 0 * tr.countP fun _ => false := by
    refine h.pays (I := fun s => ServerOk s ∧ s.Only ids) (C := fun _ ev => ev.from_network = false)
      (v := fun s => (ids.map s.work).sum) ?_ hnet ⟨hok, honly⟩
    rintro s ev t ⟨hok, honly⟩ hev hs
    obtain ⟨honly', hwork⟩ := wind_step hok honly hev hs
    exact ⟨⟨server_ok_step hok hs, honly'⟩, hwork⟩
  have hstart := hok.total_work_le ids
  exact ⟨hpays.1.1, by omega⟩

/-- Some run of such handlers ends with nothing to do. -/
theorem winds_down (hok : ServerOk s) (honly : s.Only ids) :
    ∃ tr t, serverMachine.Run s tr t ∧ (∀ x ∈ tr, x.event.winds = true) ∧ ServerOk t ∧ t.Idle := by
  obtain ⟨tr, t, hrun, hwinds, hidle⟩ := Machine.comes_to (M := serverMachine) (I := fun s => ServerOk s ∧ s.Only ids)
    (C := fun ev => ev.winds = true) (v := fun s => (ids.map s.work).sum) (fun s hi hidle => by
      obtain ⟨hok, honly⟩ := hi
      obtain ⟨hd, hwinds, hgoes⟩ := hok.goes_on hidle
      obtain ⟨o, ho⟩ := exists_serves hok honly
      obtain ⟨ha, s', hrun⟩ := hgoes o ho
      have hs : serverMachine.step s (.handler hd) s' := ⟨o, ha, hrun⟩
      have hev : ServerEvent.winds (.handler hd) = true := hwinds
      obtain ⟨honly', hwork⟩ := wind_step hok honly (winds_not_network hev) hs
      rw [hev, Bool.toNat_true] at hwork
      exact ⟨.handler hd, s', hev, hs, ⟨server_ok_step hok hs, honly'⟩, by omega⟩) ⟨hok, honly⟩
  have hnet : ∀ x ∈ tr, x.event.from_network = false := fun x hx => winds_not_network (hwinds x hx)
  exact ⟨tr, t, hrun, hwinds, (wind_run hok honly hrun hnet).1, hidle⟩

end idle

/-- In every reachable state only finitely many sessions have begun: there is a list of them. -/
theorem exists_only {s : Server} (h : serverMachine.Reachable s) : ∃ ids, s.Only ids := by
  refine h.keeps_over (J := fun s => ∃ ids, s.Only ids) (fun _ => reachable_server_ok) ?_ ?_
  · rintro _ ⟨db, rfl, _⟩
    exact ⟨[], fun _ _ => rfl⟩
  · rintro s ev s' hok ⟨ids, honly⟩ hs
    cases ev with
    | handler hd =>
      obtain ⟨o, ha, hrun⟩ := hs
      obtain ⟨_, he⟩ := handler_effect hok ha hrun
      cases hd with
      | on_accept k =>
        refine ⟨k :: ids, he.only (fun j hj => honly j fun hmem => hj (List.mem_cons_of_mem _ hmem)) ?_⟩
        rintro _ ⟨⟩
        exact List.mem_cons_self
      | _ => exact ⟨ids, he.only honly fun _ hk => by cases hk⟩
    | reorder =>
      obtain ⟨w, _, _, rfl⟩ := hs
      exact ⟨ids, honly⟩

/-- Once no connections and no packets come any more, whatever the order in which
receives fail, tasks and loads run and timers go off, few handlers are left; and as
long as the database answers, one can run until the server has given everything
back. -/
theorem server_drains {s : Server} {ids : List SessionId} (hs : serverMachine.Reachable s) (honly : s.Only ids) :
    (∀ tr t, serverMachine.Run s tr t → (∀ x ∈ tr, x.event.from_network = false) →
      tr.countP (fun x => x.event.winds) ≤ 5 * ids.length ∧
      (t.Drained ∨ ∃ hd : Handler, hd.winds = true ∧
        ∀ o : Outside, o.Serves t → hd.Admitted t o ∧ ∃ t', hd.run (t.begin o) = .ok () t')) ∧
    ∃ tr t, serverMachine.Run s tr t ∧ (∀ x ∈ tr, x.event.winds = true) ∧ t.Drained := by
  have hok := reachable_server_ok hs
  constructor
  · intro tr t hrun hnet
    obtain ⟨hokt, hfew⟩ := wind_run hok honly hrun hnet
    refine ⟨hfew, ?_⟩
    by_cases hidle : t.Idle
    · exact .inl (hokt.drained hidle)
    · exact .inr (hokt.goes_on hidle)
  · obtain ⟨tr, t, hrun, hwinds, hokt, hidle⟩ := winds_down hok honly
    exact ⟨tr, t, hrun, hwinds, hokt.drained hidle⟩

/-- So it goes when Dora is in the game and Eve in the lobby. -/
theorem dora_and_eve_leave : ∃ s p, serverMachine.Reachable s ∧ s.world.online p ∧
    ∃ tr t, serverMachine.Run s tr t ∧ (∀ x ∈ tr, x.event.winds = true) ∧ t.Drained := by
  obtain ⟨tr, s, hr, hv, _, honly, _⟩ := play_fresh [0, 1] (fun _ => true)
    (enters_lobby 0 (ascii "dora") ++ enters_lobby 1 (ascii "eve") ++ [selects 0 (ascii "Dora")])
    (fun s => s.world.registry.id_to_character 9) (some ⟨10, 9, ascii "Dora", 0⟩) two_accounts_init (by decide +kernel)
  have hs : serverMachine.Reachable s := ⟨_, tr, two_accounts_start, hr.of_steps fun _ _ h => h⟩
  exact ⟨s, ⟨10, 9, ascii "Dora", 0⟩, hs, hv, (server_drains hs honly).2⟩

end tejk_it_izi
