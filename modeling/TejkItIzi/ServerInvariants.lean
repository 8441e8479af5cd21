import TejkItIzi.PacketEffects
/-!
# The server stays in order

Between handlers every session has exactly one thing outstanding (a receive, a
transition, a load, or the end), and the characters in the game are those the
states of the sessions hold.
-/

namespace tejk_it_izi

open ProgLib

def Server.tasks_of (s : Server) (k : SessionId) : List Task := s.sync_strand.filter (·.session = k)

def Server.loads_of (s : Server) (k : SessionId) : List (SessionId × Nat) := s.database_strand.filter (·.1 = k)

/-- The states a session goes through. -/
inductive Follows : ClientState → ClientState → Prop
  | login (acc) : Follows .preauth_state (.lobby_state acc [])
  | enter (acc chars p) : Follows (.lobby_state acc chars) (.ingame_state p acc)
  | leave (p acc) : Follows (.ingame_state p acc) (.lobby_state acc [])

/-- What can be outstanding for a session: its tasks and its loads. -/
inductive Outstanding (k : SessionId) : MmoClient → List Task → List (SessionId × Nat) → Prop
  -- Open: a receive, a transition, a load or its callback.
  | receive (st status) : st ≠ .null_state → (st ≠ .preauth_state → status = .awaiting_packet_poll) →
    Outstanding k ⟨st, none, status, true, true⟩ [] []
  | transition (st new_state) : Follows st new_state →
    Outstanding k ⟨st, some new_state, .awaiting_state_transition, true, false⟩ [.transition k] []
  | load (acc chars) :
    Outstanding k ⟨.lobby_state acc chars, none, .awaiting_packet_poll, true, false⟩ [] [(k, acc.uid)]
  | loaded (acc chars new_chars) :
    Outstanding k ⟨.lobby_state acc chars, none, .awaiting_packet_poll, true, false⟩
      [.lobby_chars_loaded k new_chars] []
  -- Closed: the end, or nothing any more.
  | closing (st status) : Outstanding k ⟨st, none, status, false, false⟩ [.finalize k] []
  | closed (status) : Outstanding k ⟨.null_state, none, status, false, false⟩ [] []

/-- One of the session's states owns `p`. -/
def MmoClient.Holds (c : MmoClient) (p : EntityPtr) : Prop :=
  c.current_state.holds p ∨ ∃ st, c.state_awaiting_transition = some st ∧ st.holds p

structure ServerOk (s : Server) : Prop where
  world : WorldOk s.world
  outstanding : ∀ k c, s.clients k = some c → Outstanding k c (s.tasks_of k) (s.loads_of k)
  unknown : ∀ k, s.clients k = none → s.tasks_of k = [] ∧ s.loads_of k = []
  players : ∀ p, s.world.online p ↔ ∃ c, s.clients p.my_session = some c ∧ c.Holds p
  own : ∀ k c p, s.clients k = some c → c.Holds p → p.my_session = k

/-! ## The ways a handler can go -/

/-- A state starts. -/
def Progress.started (g : Progress) (k : SessionId) : ClientState → Progress
  | .lobby_state acc _ => { g with loads := g.loads ++ [(k, acc.uid)] }
  | _ => g.waiting

section started

variable (g : Progress) (k : SessionId) (st : ClientState)

@[simp] theorem started_world : (g.started k st).world = g.world := by cases st <;> rfl
@[simp] theorem started_packets : (g.started k st).packets = g.packets := by cases st <;> rfl
@[simp] theorem started_tasks : (g.started k st).tasks = g.tasks := by cases st <;> rfl
@[simp] theorem started_state : (g.started k st).client.current_state = g.client.current_state := by cases st <;> rfl

end started

/-- A new session. -/
def MmoClient.accepted : MmoClient := ⟨.preauth_state, none, .awaiting_packet_poll, true, true⟩

/-- The session is in its next state. -/
def MmoClient.entered (c : MmoClient) (st : ClientState) : MmoClient :=
  { c with current_state := st, state_awaiting_transition := none, async_state := .awaiting_packet_poll }

/-- The ways a handler can go that returns. -/
inductive HandlerEffect (s : Server) : Handler → Server → Prop
  -- From the network.
  | on_accept (k) : s.clients k = none → HandlerEffect s (.on_accept k) (s.progress k (.start .accepted s.world))
  | on_recv (k data size c g) : s.clients k = some c → c.receiving = true → size ≤ buffer_size →
    PacketEffect k { c with receiving := false } s.world s.authenticator data size g →
    HandlerEffect s (.on_recv k data size) (s.progress k g)
  | on_error (k c) : s.clients k = some c → c.receiving = true →
    HandlerEffect s (.on_error k) (s.progress k ((Progress.start { c with receiving := false } s.world).closing k))
  -- The first task: the old state goes, and the next one starts.
  | transition (k rest c st w ps) : s.sync_strand = .transition k :: rest → s.clients k = some c →
    c.state_awaiting_transition = some st → Destroyed k s.world c.current_state w ps →
    HandlerEffect s .next_task
      (({ s with sync_strand := rest } : Server).progress k
        ((⟨c.entered st, w, ps, [], []⟩ : Progress).started k st))
  | finalize (k rest c w ps) : s.sync_strand = .finalize k :: rest → s.clients k = some c →
    Destroyed k s.world c.current_state w ps →
    HandlerEffect s .next_task
      (({ s with sync_strand := rest } : Server).progress k ⟨{ c with current_state := .null_state }, w, ps, [], []⟩)
  -- A list of characters comes, or is asked for.
  | lobby_chars_loaded (k rest chars c acc old) : s.sync_strand = .lobby_chars_loaded k chars :: rest →
    s.clients k = some c → c.current_state = .lobby_state acc old →
    HandlerEffect s .next_task
      (({ s with sync_strand := rest } : Server).progress k
        (⟨{ c with current_state := .lobby_state acc chars }, s.world, [(k, .character_list chars)], [], []⟩ :
          Progress).waiting)
  | load (k id rest c) : s.database_strand = (k, id) :: rest → s.clients k = some c →
    HandlerEffect s .next_load
      (({ s with database_strand := rest } : Server).progress k
        ⟨c, s.world.executed (.lobby_chars id), [], [.lobby_chars_loaded k (s.world.db.get_lobby_chars id)], []⟩)
  | periodic_broadcast (c ns) : ChatEffect s.world .periodic_broadcast c ns →
    HandlerEffect s .periodic_broadcast (s.put_world (s.world.after c ns))
  | periodic_cleanup (w) : FriendEffect s.world .cleanup none w → HandlerEffect s .periodic_cleanup (s.put_world w)

/-- What a handler has done that does not return. -/
inductive HandlerDeath (s : Server) : Handler → Server → Prop
  | on_recv (k data size c f g) : s.clients k = some c → c.receiving = true → size ≤ buffer_size →
    PacketDies k { c with receiving := false } s.world s.authenticator data size →
    PacketDeath k { c with receiving := false } s.world data size f g →
    HandlerDeath s (.on_recv k data size) (s.progress k g)
  | load (k id rest c) : s.database_strand = (k, id) :: rest → s.clients k = some c →
    HandlerDeath s .next_load
      (({ s with database_strand := rest } : Server).progress k ⟨c, s.world.executed (.lobby_chars id), [], [], []⟩)

section effect

variable {s : Server} {k : SessionId} {c : MmoClient}

theorem Outstanding.of_receiving {ts : List Task} {ls : List (SessionId × Nat)} (h : Outstanding k c ts ls)
    (hr : c.receiving = true) :
    ts = [] ∧ ls = [] ∧ c.current_state ≠ .null_state ∧ MmoClient.Ready { c with receiving := false } := by
  cases h with
  | receive st status h1 h2 => exact ⟨rfl, rfl, h1, rfl, rfl, rfl, h2⟩
  | _ => cases hr

theorem start_run {g : Progress} {st : ClientState} (hopen : g.client.is_open = true)
    (hrecv : g.client.receiving = false) (hst : st ≠ .null_state) :
    st.start k (s.progress k g) = .ok () (s.progress k (g.started k st)) := by
  cases st with
  | null_state => exact absurd rfl hst
  | preauth_state | ingame_state => exact do_recv_open hopen hrecv
  | lobby_state acc chars => simp [ClientState.start, Server.progress, Progress.started]

theorem is_open_of (hc : s.clients k = some c) : c.is_open = s.is_open k := by
  simp [Server.is_open, hc]

theorem on_recv_begin (hc : s.clients k = some c) (data : Buffer) (len : Nat) :
    mmoclient.on_recv k data len s = c.current_state.handle_network_packet k data len
      (s.progress k (.start { c with receiving := false } s.world)) := by
  have hs := Server.progress_start hc
  have hm := modify_client_run (s := s) (k := k) (g := .start c s.world) fun c => { c with receiving := false }
  rw [hs] at hm
  exact (bind_ok hm _).trans (bind_ok client_at_run _)

/-- A packet handed to a session that waits for one. -/
theorem on_recv_run (h : ServerOk s) (hq : s.world.notices = []) (hc : s.clients k = some c) (hr : c.receiving = true)
    (hnew : ∀ p, (s.world.chat.entities p).isSome → p.address ≠ s.world.env.new_entity)
    (hroom : s.world.chat.rooms s.world.env.new_room = none) (data : Buffer) (len : Nat) :
    (¬ PacketDies k { c with receiving := false } s.world s.authenticator data len ∧
      ∃ g, PacketEffect k { c with receiving := false } s.world s.authenticator data len g ∧
        mmoclient.on_recv k data len s = .ok () (s.progress k g)) ∨
    (PacketDies k { c with receiving := false } s.world s.authenticator data len ∧
      ∃ f g, PacketDeath k { c with receiving := false } s.world data len f g ∧
        mmoclient.on_recv k data len s = .error f (s.progress k g)) := by
  obtain ⟨_, _, hst, hready⟩ := (h.outstanding k c hc).of_receiving hr
  rw [on_recv_begin hc]
  have hopen : c.is_open = s.is_open k := is_open_of hc
  refine packet_run (c := { c with receiving := false }) hopen hready hst hq h.world
    hnew hroom fun p hp => ?_
  have hmine := h.own k c p hc (.inl hp)
  exact (h.players p).2 ⟨c, by rw [hmine]; exact hc, .inl hp⟩

theorem ServerOk.held_online (h : ServerOk s) (hc : s.clients k = some c) {p : EntityPtr} (hp : c.Holds p) :
    s.world.online p :=
  (h.players p).2 ⟨c, by rw [h.own k c p hc hp]; exact hc, hp⟩

theorem ServerOk.known (h : ServerOk s) (ht : s.tasks_of k ≠ [] ∨ s.loads_of k ≠ []) : ∃ c, s.clients k = some c := by
  cases hc : s.clients k with
  | some c => exact ⟨c, rfl⟩
  | none =>
    obtain ⟨h1, h2⟩ := h.unknown k hc
    rcases ht with ht | ht
    · exact absurd h1 ht
    · exact absurd h2 ht

theorem tasks_of_cons {t : Task} {rest : List Task} (hs : s.sync_strand = t :: rest) :
    s.tasks_of t.session = t :: rest.filter (·.session = t.session) := by
  simp [Server.tasks_of, hs]

theorem Outstanding.of_transition {rest : List Task} {ls : List (SessionId × Nat)}
    (h : Outstanding k c (.transition k :: rest) ls) :
    rest = [] ∧ ls = [] ∧ c.is_open = true ∧ c.receiving = false ∧ c.async_state = .awaiting_state_transition ∧
      ∃ st, c.state_awaiting_transition = some st ∧ Follows c.current_state st := by
  cases h with
  | transition st new_state hf => exact ⟨rfl, rfl, rfl, rfl, rfl, new_state, rfl, hf⟩

theorem Outstanding.of_finalize {rest : List Task} {ls : List (SessionId × Nat)}
    (h : Outstanding k c (.finalize k :: rest) ls) :
    rest = [] ∧ ls = [] ∧ c.is_open = false ∧ c.receiving = false ∧ c.state_awaiting_transition = none := by
  cases h with
  | closing st status => exact ⟨rfl, rfl, rfl, rfl, rfl⟩

theorem Outstanding.of_loaded {chars : List LobbyCharacter} {rest : List Task} {ls : List (SessionId × Nat)}
    (h : Outstanding k c (.lobby_chars_loaded k chars :: rest) ls) :
    rest = [] ∧ ls = [] ∧ ∃ acc old, c = ⟨.lobby_state acc old, none, .awaiting_packet_poll, true, false⟩ := by
  cases h with
  | loaded acc old => exact ⟨rfl, rfl, acc, old, rfl⟩

theorem Outstanding.of_load {id : Nat} {ts : List Task} {rest : List (SessionId × Nat)}
    (h : Outstanding k c ts ((k, id) :: rest)) :
    ts = [] ∧ rest = [] ∧
      ∃ acc old, acc.uid = id ∧ c = ⟨.lobby_state acc old, none, .awaiting_packet_poll, true, false⟩ := by
  cases h with
  | load acc old => exact ⟨rfl, rfl, acc, old, rfl, rfl⟩

theorem Follows.not_null {st st' : ClientState} (h : Follows st st') : st' ≠ .null_state := by
  cases h <;> simp

theorem next_task_run {t : Task} {rest : List Task} (hs : s.sync_strand = t :: rest) :
    Handler.next_task.run s = t.run { s with sync_strand := rest } := by
  rw [Handler.run, get_bind, hs]
  rfl

/-- The session of a task, and the place of the task in it. -/
theorem ServerOk.of_task (h : ServerOk s) {t : Task} {rest : List Task} (hs : s.sync_strand = t :: rest) :
    ∃ c, s.clients t.session = some c ∧
      Outstanding t.session c (t :: rest.filter (·.session = t.session)) (s.loads_of t.session) := by
  have htasks := tasks_of_cons hs
  obtain ⟨c, hc⟩ := h.known (k := t.session) (.inl (by rw [htasks]; simp))
  exact ⟨c, hc, htasks ▸ h.outstanding _ c hc⟩

/-- The first task runs, and goes one of the ways listed. -/
theorem next_task_effect (h : ServerOk s) {t : Task} {rest : List Task} (hs : s.sync_strand = t :: rest) :
    ∃ s', HandlerEffect s .next_task s' ∧ Handler.next_task.run s = .ok () s' := by
  obtain ⟨c, hc, hout⟩ := h.of_task hs
  rw [next_task_run hs]
  have hstart := Server.progress_start (s := { s with sync_strand := rest }) hc
  have hopen : c.is_open = ({ s with sync_strand := rest } : Server).is_open t.session := is_open_of hc
  rw [← hstart]
  cases t with
  | transition k =>
    obtain ⟨_, _, ho, hrecv, _, st, hst, hf⟩ := hout.of_transition
    obtain ⟨w, ps, hd, hrun⟩ := destroy_run (g := .start c s.world) hopen h.world
      fun p hp => h.held_online hc (.inl hp)
    refine ⟨_, .transition k rest c st w ps hs hc hst hd, ?_⟩
    refine (bind_ok client_at_run _).trans ((bind_ok hrun _).trans ?_)
    have hst' : (Progress.start c s.world).client.state_awaiting_transition = some st := hst
    rw [hst']
    refine (bind_ok (modify_client_run _) _).trans ?_
    exact start_run (g := ⟨c.entered st, w, ps, [], []⟩) ho hrecv hf.not_null
  | finalize k =>
    obtain ⟨w, ps, hd, hrun⟩ := destroy_run (g := .start { c with current_state := .null_state } s.world) hopen
      h.world fun p hp => h.held_online hc (.inl hp)
    refine ⟨_, .finalize k rest c w ps hs hc hd, ?_⟩
    exact (bind_ok client_at_run _).trans ((bind_ok (modify_client_run _) _).trans hrun)
  | lobby_chars_loaded k chars =>
    obtain ⟨_, _, acc, old, rfl⟩ := hout.of_loaded
    refine ⟨_, .lobby_chars_loaded k rest chars _ acc old hs hc rfl, ?_⟩
    refine (bind_ok client_at_run _).trans ((bind_ok (modify_client_run _) _).trans ?_)
    exact (bind_ok (send_to_client_run (g := .start ⟨.lobby_state acc chars, none, .awaiting_packet_poll, true, false⟩
      s.world) hopen _) _).trans (do_recv_open rfl rfl)

/-- The first load is made, if the database answers. -/
theorem next_load_effect (h : ServerOk s) (hq : s.world.notices = []) {id : Nat} {rest : List (SessionId × Nat)}
    (hs : s.database_strand = (k, id) :: rest) :
    (∃ s', HandlerEffect s .next_load s' ∧ Handler.next_load.run s = .ok () s') ∨
      ∃ e t, HandlerDeath s .next_load t ∧ Handler.next_load.run s = .error (.exception e) t := by
  have hloads : s.loads_of k = (k, id) :: rest.filter (·.1 = k) := by simp [Server.loads_of, hs]
  obtain ⟨c, hc⟩ := h.known (k := k) (.inr (by rw [hloads]; simp))
  have hrun : Handler.next_load.run s = load_lobby_chars k id { s with database_strand := rest } := by
    rw [Handler.run, get_bind, hs]
    rfl
  rw [hrun, ← Server.progress_start (s := { s with database_strand := rest }) hc]
  have hopen : c.is_open = ({ s with database_strand := rest } : Server).is_open k := is_open_of hc
  cases ha : s.world.db_answer with
  | none =>
    have hl : psql_facade.get_lobby_chars id s.world =
        .ok (s.world.db.get_lobby_chars id) (s.world.executed (.lobby_chars id)) :=
      bind_ok (psql_facade.exec_ok ha _) _
    have h1 := in_world_run (g := .start c s.world) hopen hl
    rw [Progress.called_silent (by exact hq)] at h1
    exact .inl ⟨_, .load k id rest c hs hc, (bind_ok h1 _).trans (schedule_task_run _)⟩
  | some e =>
    have hl : psql_facade.get_lobby_chars id s.world = .error (.exception e) (s.world.executed (.lobby_chars id)) :=
      bind_error (psql_facade.exec_fails ha _) _
    have h1 := in_world_error (g := .start c s.world) hopen hl
    rw [Progress.called_silent (by exact hq)] at h1
    exact .inr ⟨e, _, .load k id rest c hs hc, bind_error h1 _⟩

theorem ServerOk.begin (h : ServerOk s) (o : Outside) : ServerOk (s.begin o) :=
  ⟨h.world.begin o.env, h.outstanding, h.unknown, h.players, h.own⟩

/-- Every handler goes one of the ways listed. -/
theorem handler_ends {o : Outside} {hd : Handler} (h : ServerOk s) (ha : hd.Admitted s o) :
    (∃ s', HandlerEffect (s.begin o) hd s' ∧ hd.run (s.begin o) = .ok () s') ∨
      ∃ f t, HandlerDeath (s.begin o) hd t ∧ hd.run (s.begin o) = .error f t := by
  have hb := h.begin o
  have henabled := ha.enabled
  cases hd with
  | on_accept k =>
    refine .inl ⟨_, .on_accept k henabled, ?_⟩
    have hstart := do_recv_open (s := s.begin o) (k := k)
      (g := .start ⟨.preauth_state, none, .awaiting_packet_poll, true, false⟩ (s.begin o).world) rfl rfl
    simp only [Server.progress, Progress.start, List.append_nil] at hstart
    exact hstart.trans (by simp [Server.progress, Progress.start, Progress.waiting, MmoClient.accepted])
  | on_recv k data size =>
    obtain ⟨⟨c, hc, hrecv⟩, hsize⟩ := henabled
    rcases on_recv_run hb rfl hc hrecv ha.new_entity ha.new_room data size with ⟨_, g, he, hrun⟩ | ⟨hn, f, g, he, hrun⟩
    · exact .inl ⟨_, .on_recv k data size c g hc hrecv hsize he, hrun⟩
    · exact .inr ⟨f, _, .on_recv k data size c f g hc hrecv hsize hn he, hrun⟩
  | on_error k =>
    obtain ⟨c, hc, hrecv⟩ := henabled
    have hs := Server.progress_start (s := s.begin o) hc
    have hm := modify_client_run (s := s.begin o) (k := k) (g := .start c (s.begin o).world)
      fun c => { c with receiving := false }
    rw [hs] at hm
    exact .inl ⟨_, .on_error k c hc hrecv, (bind_ok hm _).trans force_close_run⟩
  | next_task =>
    cases hs : s.sync_strand with
    | nil => exact absurd hs henabled
    | cons t rest => exact .inl (next_task_effect hb hs)
  | next_load =>
    cases hs : s.database_strand with
    | nil => exact absurd hs henabled
    | cons l rest =>
      rcases next_load_effect hb rfl (k := l.1) hs with hret | ⟨e, t, he, hrun⟩
      · exact .inl hret
      · exact .inr ⟨_, t, he, hrun⟩
  | periodic_broadcast =>
    obtain ⟨c, ns, he, hrun⟩ := hb.world.chat_effect .periodic_broadcast trivial
    exact .inl ⟨_, .periodic_broadcast c ns he, in_world_ok hrun⟩
  | periodic_cleanup =>
    obtain ⟨res, w', he, hrun⟩ := hb.world.friend_effect .cleanup trivial fun _ h => by cases h
    have hres : res = none := by cases he; rfl
    subst hres
    exact .inl ⟨_, .periodic_cleanup w' he, in_world_ok hrun⟩

/-- A handler that returns has gone one of the ways listed. -/
theorem handler_effect {s' : Server} {o : Outside} {hd : Handler} (h : ServerOk s) (ha : hd.Admitted s o)
    (hr : hd.run (s.begin o) = .ok () s') : ServerOk (s.begin o) ∧ HandlerEffect (s.begin o) hd s' := by
  refine ⟨h.begin o, ?_⟩
  rcases handler_ends h ha with ⟨s1, he, hrun⟩ | ⟨f, t, _, hrun⟩
  · rw [hrun] at hr
    cases hr
    exact he
  · rw [hrun] at hr
    cases hr

end effect

/-! ## Every step keeps the order -/

/-- What a handler of session `k` leaves, if it found the world `w`, and `ts` and
`ls` besides its own posted for the session. -/
structure Settled (k : SessionId) (w : World) (ts : List Task) (ls : List (SessionId × Nat)) (g : Progress) : Prop where
  world : WorldOk g.world
  outstanding : Outstanding k g.client (ts ++ g.tasks) (ls ++ g.loads)
  tasks : ∀ t ∈ g.tasks, t.session = k
  loads : ∀ l ∈ g.loads, l.1 = k
  others : ∀ p, p.my_session ≠ k → (g.world.online p ↔ w.online p)
  mine : ∀ p, p.my_session = k → (g.world.online p ↔ g.client.Holds p)
  own : ∀ p, g.client.Holds p → p.my_session = k

/-- A handler that leaves its own session settled leaves the server in order. -/
theorem ServerOk.progress {s : Server} {k : SessionId} {g : Progress} (h : ServerOk s) (s0 : Server)
    (hclients : s0.clients = s.clients) (htasks : ∀ j, j ≠ k → s0.tasks_of j = s.tasks_of j)
    (hloads : ∀ j, j ≠ k → s0.loads_of j = s.loads_of j)
    (hg : Settled k s.world (s0.tasks_of k) (s0.loads_of k) g) : ServerOk (s0.progress k g) := by
  have hself : (s0.progress k g).clients k = some g.client := progress_client
  have hne (j : SessionId) (hj : j ≠ k) : (s0.progress k g).clients j = s.clients j :=
    (progress_client_ne hj).trans (congrFun hclients j)
  have ht (j : SessionId) : (s0.progress k g).tasks_of j = if j = k then s0.tasks_of k ++ g.tasks else s.tasks_of j := by
    have happ : (s0.progress k g).tasks_of j = s0.tasks_of j ++ g.tasks.filter (·.session = j) := List.filter_append ..
    rw [happ]
    split
    case isTrue hj =>
      subst hj
      rw [List.filter_eq_self.2 fun t ht => by simpa using hg.tasks t ht]
    case isFalse hj =>
      rw [List.filter_eq_nil_iff.2 fun t ht => by simpa [hg.tasks t ht] using Ne.symm hj, List.append_nil, htasks j hj]
  have hl (j : SessionId) : (s0.progress k g).loads_of j = if j = k then s0.loads_of k ++ g.loads else s.loads_of j := by
    have happ : (s0.progress k g).loads_of j = s0.loads_of j ++ g.loads.filter (·.1 = j) := List.filter_append ..
    rw [happ]
    split
    case isTrue hj =>
      subst hj
      rw [List.filter_eq_self.2 fun t ht => by simpa using hg.loads t ht]
    case isFalse hj =>
      rw [List.filter_eq_nil_iff.2 fun t ht => by simpa [hg.loads t ht] using Ne.symm hj, List.append_nil, hloads j hj]
  refine ⟨hg.world, fun j c hc => ?_, fun j hc => ?_, fun p => ?_, fun j c p hc hp => ?_⟩
  · by_cases hj : j = k
    · subst hj
      rw [hself] at hc
      cases hc
      rw [ht, hl, if_pos rfl, if_pos rfl]
      exact hg.outstanding
    · rw [hne j hj] at hc
      rw [ht, hl, if_neg hj, if_neg hj]
      exact h.outstanding j c hc
  · by_cases hj : j = k
    · subst hj
      rw [hself] at hc
      cases hc
    · rw [hne j hj] at hc
      rw [ht, hl, if_neg hj, if_neg hj]
      exact h.unknown j hc
  · by_cases hp : p.my_session = k
    · rw [hp, hself]
      exact (hg.mine p hp).trans (by simp)
    · rw [hne _ hp]
      exact (hg.others p hp).trans (h.players p)
  · by_cases hj : j = k
    · subst hj
      rw [hself] at hc
      cases hc
      exact hg.own p hp
    · rw [hne j hj] at hc
      exact h.own j c p hc hp

/-- The states of the session own exactly its characters in the game. -/
structure Owns (k : SessionId) (w : World) (c : MmoClient) : Prop where
  mine : ∀ p, p.my_session = k → (w.online p ↔ c.Holds p)
  own : ∀ p, c.Holds p → p.my_session = k

theorem ServerOk.owns {s : Server} {k : SessionId} {c : MmoClient} (h : ServerOk s) (hc : s.clients k = some c) :
    Owns k s.world c where
  mine p hp := by rw [h.players p, hp, hc]; simp
  own p hp := h.own k c p hc hp

section settled

variable {k : SessionId} {w w' : World} {st st' new_state : ClientState} {status : AsyncOperationStatus}
  {ps : List (SessionId × Packet)}

theorem holds_single {is_open receiving : Bool} {p : EntityPtr} :
    MmoClient.Holds ⟨st, none, status, is_open, receiving⟩ p ↔ st.holds p := by
  simp [MmoClient.Holds]

/-- The handler has not touched the players. -/
theorem Settled.of_same {c c' : MmoClient} {ts ts' : List Task} {ls ls' : List (SessionId × Nat)} (ho : Owns k w c)
    (hw : WorldOk w') (hon : ∀ p, w'.online p ↔ w.online p) (hh : ∀ p, c'.Holds p ↔ c.Holds p)
    (hout : Outstanding k c' (ts ++ ts') (ls ++ ls')) (ht : ∀ t ∈ ts', t.session = k) (hl : ∀ l ∈ ls', l.1 = k) :
    Settled k w ts ls ⟨c', w', ps, ts', ls'⟩ where
  world := hw
  outstanding := hout
  tasks := ht
  loads := hl
  others p _ := hon p
  mine p hp := by rw [hh]; exact (hon p).trans (ho.mine p hp)
  own p hp := ho.own p ((hh p).1 hp)

theorem Settled.waiting (ho : Owns k w ⟨st, none, status, true, false⟩) (hw : WorldOk w')
    (hon : ∀ p, w'.online p ↔ w.online p) (hh : ∀ p, st'.holds p ↔ st.holds p) (hst : st' ≠ .null_state)
    (hstatus : st' ≠ .preauth_state → status = .awaiting_packet_poll) :
    Settled k w [] [] (⟨⟨st', none, status, true, false⟩, w', ps, [], []⟩ : Progress).waiting :=
  .of_same ho hw hon (fun p => by rw [holds_single, holds_single]; exact hh p)
    (.receive st' status hst hstatus) (by simp) (by simp)

theorem Settled.closing {is_open receiving : Bool} (ho : Owns k w ⟨st, none, status, true, false⟩) (hw : WorldOk w')
    (hon : ∀ p, w'.online p ↔ w.online p) :
    Settled k w [] [] ((⟨⟨st, none, status, is_open, receiving⟩, w', ps, [], []⟩ : Progress).closing k) :=
  .of_same ho hw hon (fun p => by rw [holds_single, holds_single]) (.closing st status) (by simp [Task.session])
    (by simp)

theorem Settled.changing (ho : Owns k w ⟨st, none, status, true, false⟩) (hw : WorldOk w')
    (hon : ∀ p, w'.online p ↔ w.online p) (hf : Follows st new_state) (hnew : ∀ p, ¬ new_state.holds p) :
    Settled k w [] [] ((⟨⟨st, none, status, true, false⟩, w', ps, [], []⟩ : Progress).changing k new_state) :=
  .of_same ho hw hon (fun p => by simp [MmoClient.Holds, hnew p]) (.transition st new_state hf) (by simp [Task.session])
    (by simp)

variable {acc : AccountData} {chars : List LobbyCharacter} {g : Progress}

theorem PreauthEffect.settled {valid : Bytes → Bytes → Bool} {keys : Keys}
    (he : PreauthEffect k ⟨.preauth_state, none, status, true, false⟩ w valid keys g)
    (ho : Owns k w ⟨.preauth_state, none, status, true, false⟩) (hok : WorldOk w) : Settled k w [] [] g := by
  have looked (login : Bytes) : WorldOk (w.account_lookup login).2 ∧
      ∀ p, (w.account_lookup login).2.online p ↔ w.online p := by
    rcases account_lookup_world w login with h | ⟨id, h⟩ <;> rw [h]
    · exact ⟨hok.executed _, fun p => Iff.rfl⟩
    · exact ⟨(hok.executed _).executed _, fun p => Iff.rfl⟩
  cases he with
  | unknown_opcode => exact .closing ho hok fun p => Iff.rfl
  | malformed => exact .closing ho hok fun p => Iff.rfl
  | bad_keys key login hv => exact .closing ho hok fun p => Iff.rfl
  | lookup_fails key login w' hv hl =>
    have hw := looked login
    rw [hl] at hw
    exact .closing ho hw.1 hw.2
  | login key login acc w' hv hl =>
    have hw := looked login
    rw [hl] at hw
    exact .changing ho hw.1 hw.2 (.login acc) fun p h => h

theorem LobbyEffect.settled {request : LobbyRequest}
    (he : LobbyEffect k ⟨.lobby_state acc chars, none, .awaiting_packet_poll, true, false⟩ w acc chars request g)
    (ho : Owns k w ⟨.lobby_state acc chars, none, .awaiting_packet_poll, true, false⟩) (hok : WorldOk w)
    (hnew : ∀ p, (w.chat.entities p).isSome → p.address ≠ w.env.new_entity) : Settled k w [] [] g := by
  have hlobby (chars' : List LobbyCharacter) (p : EntityPtr) :
      ClientState.holds p (.lobby_state acc chars') ↔ ClientState.holds p (.lobby_state acc chars) := Iff.rfl
  cases he with
  | ignored => exact .waiting ho hok (fun p => Iff.rfl) (hlobby _) (by simp) fun _ => rfl
  | log_off => exact .closing ho hok fun p => Iff.rfl
  | select_absent name hf => exact .closing ho hok fun p => Iff.rfl
  | select_fails name ch e hf hid ha => exact .closing ho (hok.executed _) fun p => Iff.rfl
  | select name ch w' hf hfree hef =>
    have hent : w.chat.entities (w.newcomer k ch) = none := by
      rw [← Option.not_isSome_iff_eq_none]
      exact fun h => hnew _ h rfl
    obtain ⟨hw, hon⟩ := hok.enters hent hfree hef
    -- Nothing of the session was in the game, and the newcomer is.
    have hnone (p : EntityPtr) (hp : p.my_session = k) : ¬ w.online p := by
      rw [ho.mine p hp, holds_single]
      exact id
    have hmine (p : EntityPtr) : MmoClient.Holds ⟨.lobby_state acc chars, some (.ingame_state (w.newcomer k ch) acc),
        .awaiting_state_transition, true, false⟩ p ↔ w.newcomer k ch = p := by
      simp [MmoClient.Holds, ClientState.holds]
    refine ⟨hw.quiet, .transition _ _ (.enter acc chars _), by simp [Progress.changing, Task.session],
      by simp [Progress.changing], fun p hp => ?_, fun p hp => ?_, fun p hp => ?_⟩
    · refine (hon p).trans (or_iff_left ?_)
      rintro rfl
      exact hp rfl
    · refine (hon p).trans ((or_iff_right (hnone p hp)).trans ?_)
      exact eq_comm.trans (hmine p).symm
    · rw [← (hmine p).1 hp]
      rfl
  | create_refused name reason hw => exact .waiting ho hok (fun p => Iff.rfl) (hlobby _) (by simp) fun _ => rfl
  | create_taken name h1 h2 h3 =>
    exact .waiting ho (hok.executed _) (fun p => Iff.rfl) (hlobby _) (by simp) fun _ => rfl
  | create_lookup_fails name h1 h2 => exact .closing ho (hok.executed _) fun p => Iff.rfl
  | create_fails name h1 h2 h3 => exact .closing ho ((hok.executed _).executed _) fun p => Iff.rfl
  | create name h1 h2 h3 =>
    exact .waiting ho (((hok.executed _).executed _).with_db _) (fun p => Iff.rfl) (hlobby _) (by simp) fun _ => rfl
  | delete_absent name hf => exact .closing ho hok fun p => Iff.rfl
  | delete_fails name ch hf => exact .closing ho (hok.executed _) fun p => Iff.rfl
  | delete name ch hf =>
    exact .waiting ho ((hok.executed _).with_db _) (fun p => Iff.rfl) (hlobby _) (by simp) fun _ => rfl

theorem IngameRequest.chat_op_quiet {p : EntityPtr} {request : IngameRequest} {op : ChatOp}
    (h : request.chat_op p = some op) : ¬ op.registers := by
  cases request <;> cases h <;> exact id

theorem IngameEffect.settled {p : EntityPtr} {request : IngameRequest}
    (he : IngameEffect k ⟨.ingame_state p acc, none, .awaiting_packet_poll, true, false⟩ w p acc request g)
    (ho : Owns k w ⟨.ingame_state p acc, none, .awaiting_packet_poll, true, false⟩) (hok : WorldOk w) :
    Settled k w [] [] g := by
  cases he with
  | ignored => exact .waiting ho hok (fun q => Iff.rfl) (fun q => Iff.rfl) (by simp) fun _ => rfl
  | log_off => exact .changing ho hok (fun q => Iff.rfl) (.leave p acc) fun q h => h
  | chat request op c' ns hop hperm hef =>
    exact .waiting ho (hok.of_chat hef (IngameRequest.chat_op_quiet hop)).quiet (fun q => Iff.rfl) (fun q => Iff.rfl)
      (by simp) fun _ => rfl
  | friends request op w' hop hperm hef =>
    have hreg := IngameRequest.friend_op_quiet hop
    refine .waiting ho (hok.of_friend hef hperm hreg).quiet (fun q => ?_) (fun q => Iff.rfl) (by simp) fun _ => rfl
    exact iff_of_eq (congrArg (fun r : WorldRegistrar => r.id_to_character q.id = some q) (hef.same_registry hreg))
  | friends_fail request op e w' hop hperm hef =>
    have hreg := IngameRequest.friend_op_quiet hop
    refine .closing ho (hok.of_friend hef hperm hreg).quiet fun q => ?_
    exact iff_of_eq (congrArg (fun r : WorldRegistrar => r.id_to_character q.id = some q) (hef.same_registry hreg))

theorem PacketEffect.settled {c : MmoClient} {valid : Bytes → Bytes → Bool} {data : Buffer} {len : Nat}
    {ts : List Task} {ls : List (SessionId × Nat)} (he : PacketEffect k { c with receiving := false } w valid data len g)
    (hout : Outstanding k c ts ls) (hr : c.receiving = true) (ho : Owns k w c) (hok : WorldOk w)
    (hnew : ∀ p, (w.chat.entities p).isSome → p.address ≠ w.env.new_entity) : Settled k w [] [] g := by
  cases hout with
  | receive st status hnull hstatus =>
    have ho' : Owns k w ⟨st, none, status, true, false⟩ := ⟨ho.mine, ho.own⟩
    cases he with
    | preauth _ hst hp =>
      cases hst
      exact hp.settled ho' hok
    | lobby_malformed acc chars e hst hp => exact .closing ho' hok fun p => Iff.rfl
    | lobby acc chars request _ hst hp hl =>
      cases hst
      obtain rfl := hstatus (by simp)
      exact hl.settled ho' hok hnew
    | ingame_malformed p acc e hst hp => exact .closing ho' hok fun p => Iff.rfl
    | ingame p acc request _ hst hp hl =>
      cases hst
      obtain rfl := hstatus (by simp)
      exact hl.settled ho' hok
  | _ => cases hr

/-- A session whose state is destroyed owns nothing of it afterwards. -/
theorem Destroyed.settled_owns {c : MmoClient} (hd : Destroyed k w c.current_state w' ps) (ho : Owns k w c)
    (hok : WorldOk w) : WorldOk w' ∧ ∀ p, w'.online p ↔ w.online p ∧ ¬ c.current_state.holds p :=
  hd.left hok fun p hp => (ho.mine p (ho.own p (.inl hp))).2 (.inl hp)

theorem transition_settled {c : MmoClient} {ls : List (SessionId × Nat)} (hout : Outstanding k c [.transition k] ls)
    (hst : c.state_awaiting_transition = some st) (hd : Destroyed k w c.current_state w' ps) (ho : Owns k w c)
    (hok : WorldOk w) :
    Settled k w [] [] ((⟨c.entered st, w', ps, [], []⟩ : Progress).started k st) := by
  obtain ⟨hw, hon⟩ := hd.settled_owns ho hok
  obtain ⟨_, _, hopen, hrecv, hasync, st', hst', hf⟩ := hout.of_transition
  rw [hst] at hst'
  cases hst'
  obtain ⟨cur, _, _, _, _⟩ := c
  cases hst
  cases hopen
  cases hrecv
  cases hasync
  have hholds (p : EntityPtr) : MmoClient.Holds ⟨cur, some st, .awaiting_state_transition, true, false⟩ p ↔
      cur.holds p ∨ st.holds p := by
    simp [MmoClient.Holds]
  have hothers (p : EntityPtr) (hp : p.my_session ≠ k) : w'.online p ↔ w.online p := by
    rw [hon]
    exact and_iff_left_of_imp fun _ h => hp (ho.own p (.inl h))
  -- One of the two states is a lobby, so none is both destroyed and kept.
  have hmine (p : EntityPtr) (hp : p.my_session = k) : w'.online p ↔ st.holds p := by
    rw [hon, ho.mine p hp, hholds]
    cases hf with
    | login | enter => simp [ClientState.holds]
    | leave => simp [ClientState.holds]
  have hown (p : EntityPtr) (h : st.holds p) : p.my_session = k := ho.own p (.inr ⟨st, rfl, h⟩)
  cases hf with
  | login acc | leave p acc =>
    exact ⟨hw, .load acc [], by simp [Progress.started], by simp [Progress.started], hothers,
      fun p hp => (hmine p hp).trans holds_single.symm, fun p h => hown p (holds_single.1 h)⟩
  | enter acc chars p =>
    exact ⟨hw, .receive _ _ (by simp [MmoClient.entered]) fun _ => rfl, by simp [Progress.started, Progress.waiting],
      by simp [Progress.started, Progress.waiting], hothers, fun q hq => (hmine q hq).trans holds_single.symm,
      fun q h => hown q (holds_single.1 h)⟩

theorem finalize_settled {c : MmoClient} {ls : List (SessionId × Nat)} (hout : Outstanding k c [.finalize k] ls)
    (hd : Destroyed k w c.current_state w' ps) (ho : Owns k w c) (hok : WorldOk w) :
    Settled k w [] [] ⟨{ c with current_state := .null_state }, w', ps, [], []⟩ := by
  obtain ⟨hw, hon⟩ := hd.settled_owns ho hok
  cases hout with
  | closing st status =>
    refine ⟨hw, .closed status, by simp, by simp, fun p hp => ?_, fun p hp => ?_, fun p h => ?_⟩
    · rw [hon]
      exact and_iff_left_of_imp fun _ h => hp (ho.own p (.inl h))
    · rw [hon, ho.mine p hp, holds_single, holds_single]
      exact ⟨fun h => absurd h.1 h.2, fun h => h.elim⟩
    · exact (holds_single.1 h).elim

end settled

section steps

variable {s s' : Server}

/-- The rest of a strand is, for the other sessions, what it was. -/
theorem tasks_of_rest {t : Task} {rest : List Task} (hs : s.sync_strand = t :: rest) {j : SessionId}
    (hj : j ≠ t.session) : ({ s with sync_strand := rest } : Server).tasks_of j = s.tasks_of j := by
  simp [Server.tasks_of, hs, Ne.symm hj]

theorem loads_of_rest {l : SessionId × Nat} {rest : List (SessionId × Nat)} (hs : s.database_strand = l :: rest)
    {j : SessionId} (hj : j ≠ l.1) : ({ s with database_strand := rest } : Server).loads_of j = s.loads_of j := by
  simp [Server.loads_of, hs, Ne.symm hj]

/-- The first task of a session is its only one. -/
theorem ServerOk.only_task (h : ServerOk s) {t : Task} {rest : List Task} (hs : s.sync_strand = t :: rest)
    {c : MmoClient} (hc : s.clients t.session = some c) :
    Outstanding t.session c [t] [] ∧ ({ s with sync_strand := rest } : Server).tasks_of t.session = [] ∧
      s.loads_of t.session = [] := by
  obtain ⟨c', hc', hout⟩ := h.of_task hs
  rw [hc] at hc'
  cases hc'
  have hnone : rest.filter (·.session = t.session) = [] ∧ s.loads_of t.session = [] := by
    cases t with
    | transition k => exact ⟨hout.of_transition.1, hout.of_transition.2.1⟩
    | finalize k => exact ⟨hout.of_finalize.1, hout.of_finalize.2.1⟩
    | lobby_chars_loaded k chars => exact ⟨hout.of_loaded.1, hout.of_loaded.2.1⟩
  rw [hnone.1, hnone.2] at hout
  exact ⟨hout, hnone⟩

/-- So is the first load. -/
theorem ServerOk.only_load (h : ServerOk s) {id : Nat} {rest : List (SessionId × Nat)}
    (hs : s.database_strand = (k, id) :: rest) {c : MmoClient} (hc : s.clients k = some c) :
    s.tasks_of k = [] ∧ ({ s with database_strand := rest } : Server).loads_of k = [] ∧
      ∃ acc old, acc.uid = id ∧ c = ⟨.lobby_state acc old, none, .awaiting_packet_poll, true, false⟩ := by
  have hloads : s.loads_of k = (k, id) :: rest.filter (·.1 = k) := by simp [Server.loads_of, hs]
  have hout := h.outstanding k c hc
  rw [hloads] at hout
  exact hout.of_load

/-- What the handler of a task leaves settled, it leaves in order. -/
theorem ServerOk.progress_task (h : ServerOk s) {t : Task} {rest : List Task} (hs : s.sync_strand = t :: rest)
    {c : MmoClient} (hc : s.clients t.session = some c) {g : Progress} (hg : Settled t.session s.world [] [] g) :
    ServerOk (({ s with sync_strand := rest } : Server).progress t.session g) := by
  obtain ⟨_, ht, hl⟩ := h.only_task hs hc
  refine h.progress { s with sync_strand := rest } rfl (fun j hj => tasks_of_rest hs hj) (fun _ _ => rfl) ?_
  rw [ht, show ({ s with sync_strand := rest } : Server).loads_of t.session = [] from hl]
  exact hg

theorem ServerOk.follows (h : ServerOk s) {rest : List Task} (hs : s.sync_strand = .transition k :: rest)
    {c : MmoClient} (hc : s.clients k = some c) {st : ClientState} (hst : c.state_awaiting_transition = some st) :
    c.is_open = true ∧ c.receiving = false ∧ Follows c.current_state st := by
  obtain ⟨hout, _⟩ := h.only_task hs hc
  obtain ⟨_, _, hopen, hrecv, _, st', hst', hf⟩ := hout.of_transition
  rw [hst] at hst'
  cases hst'
  exact ⟨hopen, hrecv, hf⟩

/-- Calls into the world that leave the players alone. -/
theorem ServerOk.put_world (h : ServerOk s) {w : World} (hw : WorldOk w)
    (hon : ∀ p, w.online p ↔ s.world.online p) : ServerOk (s.put_world w) :=
  ⟨hw.quiet, h.outstanding, h.unknown, fun p => (hon p).trans (h.players p), h.own⟩

theorem HandlerEffect.ok {hd : Handler} (he : HandlerEffect s hd s') (h : ServerOk s)
    (hnew : ∀ p, (s.world.chat.entities p).isSome → p.address ≠ s.world.env.new_entity) : ServerOk s' := by
  cases he with
  | on_accept k hk =>
    obtain ⟨ht, hl⟩ := h.unknown k hk
    have hnobody (p : EntityPtr) (hp : p.my_session = k) : ¬ s.world.online p := by
      rw [h.players p, hp, hk]
      simp
    refine h.progress s rfl (fun _ _ => rfl) (fun _ _ => rfl) ⟨h.world, ?_, by simp [Progress.start],
      by simp [Progress.start], fun p _ => Iff.rfl, fun p hp => ?_, fun p hp => ?_⟩
    · rw [ht, hl]
      exact .receive _ _ (by simp) (by simp)
    · exact iff_of_false (hnobody p hp) fun h => (holds_single.1 h).elim
    · exact (holds_single.1 hp).elim
  | on_recv k data size c g hc hr hsize he =>
    have hout := h.outstanding k c hc
    have hg := he.settled hout hr (h.owns hc) h.world hnew
    obtain ⟨ht, hl, _⟩ := hout.of_receiving hr
    refine h.progress s rfl (fun _ _ => rfl) (fun _ _ => rfl) ?_
    rw [ht, hl]
    exact hg
  | on_error k c hc hr =>
    have hout := h.outstanding k c hc
    obtain ⟨ht, hl, _⟩ := hout.of_receiving hr
    refine h.progress s rfl (fun _ _ => rfl) (fun _ _ => rfl) ?_
    rw [ht, hl] at hout ⊢
    cases hout with
    | receive st status =>
      exact .closing ⟨(h.owns hc).mine, (h.owns hc).own⟩ h.world fun p => Iff.rfl
    | _ => cases hr
  | transition k rest c st w ps hs hc hst hd =>
    exact h.progress_task hs hc (transition_settled (h.only_task hs hc).1 hst hd (h.owns hc) h.world)
  | finalize k rest c w ps hs hc hd =>
    exact h.progress_task hs hc (finalize_settled (h.only_task hs hc).1 hd (h.owns hc) h.world)
  | lobby_chars_loaded k rest chars c acc old hs hc hst =>
    obtain ⟨_, _, acc', old', rfl⟩ := (h.only_task hs hc).1.of_loaded
    cases hst
    refine h.progress_task hs hc ?_
    exact .waiting ⟨(h.owns hc).mine, (h.owns hc).own⟩ h.world (fun p => Iff.rfl) (fun p => Iff.rfl) (by simp)
      fun _ => rfl
  | load k id rest c hs hc =>
    obtain ⟨ht, hrest, acc, old, hid, rfl⟩ := h.only_load hs hc
    refine h.progress { s with database_strand := rest } rfl (fun _ _ => rfl)
      (fun j hj => loads_of_rest hs hj) ?_
    rw [show ({ s with database_strand := rest } : Server).tasks_of k = [] from ht,
      show ({ s with database_strand := rest } : Server).loads_of k = [] from hrest]
    exact .of_same (h.owns hc) (h.world.executed _) (fun p => Iff.rfl) (fun p => Iff.rfl) (.loaded acc old _)
      (by simp [Task.session]) (by simp)
  | periodic_broadcast c ns he => exact h.put_world (h.world.of_chat he id) fun p => Iff.rfl
  | periodic_cleanup w he =>
    refine h.put_world (h.world.of_friend he trivial id) fun p => ?_
    exact iff_of_eq (congrArg (fun r : WorldRegistrar => r.id_to_character p.id = some p) (he.same_registry id))

theorem server_ok_reorder {w : World} (h : ServerOk s) (hr : s.world.Reorders w) :
    ServerOk { s with world := w, sent := [] } := by
  have hw := h.world
  refine ⟨⟨hr.consistent hw.consistent, hr.friends_ok hw.friends_ok, fun p => ?_⟩, h.outstanding, h.unknown,
    fun p => ?_, h.own⟩
  · rw [hr.entity_isSome, World.online, hr.registry]
    exact hw.players p
  · rw [World.online, hr.registry]
    exact h.players p

theorem server_ok_step {ev : ServerEvent} (h : ServerOk s) (hs : serverMachine.step s ev s') : ServerOk s' := by
  cases ev with
  | handler hd =>
    obtain ⟨o, ha, hr⟩ := hs
    obtain ⟨hb, he⟩ := handler_effect h ha hr
    exact he.ok hb ha.new_entity
  | reorder =>
    obtain ⟨w, hr, _, rfl⟩ := hs
    exact server_ok_reorder h hr

theorem server_ok_fresh (db : Database) : ServerOk (.fresh db) := by
  have hchat : ChatInv (World.fresh db) := chat_inv_init ⟨rfl, rfl⟩
  refine ⟨⟨hchat.consistent, ⟨?_, by simp [Server.fresh, World.fresh]⟩, ?_⟩, ?_, ?_, ?_, ?_⟩
  · constructor <;> simp [Server.fresh, World.fresh]
  all_goals simp [Server.fresh, World.fresh, World.online, Server.tasks_of, Server.loads_of]

theorem server_ok_init (h : serverMachine.init s) : ServerOk s := by
  obtain ⟨db, rfl, _⟩ := h
  exact server_ok_fresh db

theorem reachable_server_ok (h : serverMachine.Reachable s) : ServerOk s :=
  h.keeps (fun _ => server_ok_init) fun _ _ _ => server_ok_step

end steps

/-! ## The table of friends -/

section first_smaller

variable {s s' : Server} {k : SessionId} {c : MmoClient} {w w' : World} {g : Progress}

theorem Destroyed.first_smaller {st : ClientState} {ps : List (SessionId × Packet)} (h : Destroyed k w st w' ps)
    (hw : w.db.FirstSmaller) : w'.db.FirstSmaller := by
  cases h with
  | ingame_state p acc w1 c ns hf hc => exact hf.first_smaller hw
  | other => exact hw

theorem PacketEffect.first_smaller {valid : Bytes → Bytes → Bool} {data : Buffer} {len : Nat}
    (he : PacketEffect k c w valid data len g) (hw : w.db.FirstSmaller) : g.world.db.FirstSmaller := by
  cases he with
  | preauth g hst hp =>
    have looked_up (login : Bytes) : (w.account_lookup login).2.db.FirstSmaller := by
      rcases account_lookup_world w login with h | ⟨id, h⟩ <;> rw [h] <;> exact hw
    generalize preauth_state.read data len = keys at hp
    cases hp with
    | lookup_fails key login w' hv hl | login key login acc w' hv hl =>
      have h := looked_up login
      rw [hl] at h
      exact h
    | unknown_opcode | malformed | bad_keys => exact hw
  | lobby acc chars request g hst hr hl =>
    cases hl with
    | select name ch w' hf hfree hef => exact hef.first_smaller (w := w.in_chat _) hw
    | _ => exact hw
  | ingame p acc request g hst hr hl =>
    cases hl with
    | friends request op w' hop hperm hef | friends_fail request op e w' hop hperm hef => exact hef.first_smaller hw
    | _ => exact hw
  | lobby_malformed | ingame_malformed => exact hw

theorem HandlerEffect.first_smaller {hd : Handler} (he : HandlerEffect s hd s') (h : s.world.db.FirstSmaller) :
    s'.world.db.FirstSmaller := by
  cases he with
  | on_recv k data size c g hc hr hsize he => exact he.first_smaller h
  | transition k rest c st w ps hs hc hst hd =>
    show Database.FirstSmaller (Progress.started _ k st).world.db
    rw [started_world]
    exact hd.first_smaller h
  | finalize k rest c w ps hs hc hd => exact hd.first_smaller h
  | periodic_cleanup w he => exact he.first_smaller h
  | _ => exact h

/-- Every step of the server leaves the smaller id first. -/
theorem first_smaller_step {ev : ServerEvent} (hok : ServerOk s) (hs : serverMachine.step s ev s')
    (h : s.world.db.FirstSmaller) : s'.world.db.FirstSmaller := by
  cases ev with
  | handler hd =>
    obtain ⟨o, ha, hr⟩ := hs
    exact (handler_effect hok ha hr).2.first_smaller h
  | reorder =>
    obtain ⟨w, hre, _, rfl⟩ := hs
    exact hre.first_smaller h

end first_smaller

end tejk_it_izi
