import TejkItIzi.InGame
import TejkItIzi.Server
/-!
# What the handlers do

A handler of a session changes that session, the world, and what is posted and
sent; `Progress` is all of it. The `_run` lemmas follow the programs of
`Server.lean` from one `Progress` to the next.
-/

namespace tejk_it_izi

open ProgLib

/-- What a handler of one session has done so far. -/
structure Progress where
  client : MmoClient
  world : World
  packets : List (SessionId × Packet)
  tasks : List Task
  loads : List (SessionId × Nat)

/-- The server after this much of a handler for session `k`. -/
def Server.progress (s : Server) (k : SessionId) (g : Progress) : Server where
  world := g.world
  authenticator := s.authenticator
  clients := Function.update s.clients k (some g.client)
  sync_strand := s.sync_strand ++ g.tasks
  database_strand := s.database_strand ++ g.loads
  sent := s.sent ++ g.packets.map fun p => ⟨p.1, p.2, s.is_open p.1⟩

/-- The handler has just begun. -/
def Progress.start (c : MmoClient) (w : World) : Progress := ⟨c, w, [], [], []⟩

/-! ## One operation -/

section run

variable {s : Server} {k : SessionId} {g : Progress} {c : MmoClient}

theorem Server.progress_start (h : s.clients k = some c) : s.progress k (.start c s.world) = s := by
  have hc : Function.update s.clients k (some c) = s.clients := by rw [← h, Function.update_eq_self]
  simp [Server.progress, Progress.start, hc]

@[simp] theorem progress_client : (s.progress k g).clients k = some g.client := Function.update_self ..

theorem progress_client_ne {j : SessionId} (h : j ≠ k) : (s.progress k g).clients j = s.clients j :=
  Function.update_of_ne h ..

theorem client_at_run : client_at k (s.progress k g) = .ok g.client (s.progress k g) := by
  simp [client_at, Server.progress]

theorem modify_client_run (f : MmoClient → MmoClient) :
    modify_client k f (s.progress k g) = .ok () (s.progress k { g with client := f g.client }) := by
  unfold modify_client
  rw [bind_ok client_at_run]
  simp [Server.progress, Server.put_client]

theorem schedule_task_run (t : Task) :
    schedule_task t (s.progress k g) = .ok () (s.progress k { g with tasks := g.tasks ++ [t] }) := by
  simp [schedule_task, Server.progress]

/-- The session has its socket as long as it had it when the handler began. -/
theorem progress_emit (hopen : g.client.is_open = s.is_open k) (ps : List (SessionId × Packet)) :
    (s.progress k g).emit ps = s.progress k { g with packets := g.packets ++ ps } := by
  have hsame : (s.progress k g).is_open = s.is_open := by
    funext j
    by_cases hj : j = k
    · subst hj
      rw [← hopen]
      simp [Server.is_open, Server.progress]
    · simp [Server.is_open, Server.progress, hj]
  unfold Server.emit
  rw [hsame]
  simp [Server.progress]

theorem send_to_client_run (hopen : g.client.is_open = s.is_open k) (p : Packet) :
    net_session.send_to_client k p (s.progress k g) =
      .ok () (s.progress k { g with packets := g.packets ++ [(k, p)] }) := by
  rw [← progress_emit hopen]
  rfl

/-- The session has handed the world's packets on. -/
def Progress.called (g : Progress) (w : World) : Progress :=
  { g with world := w.quiet, packets := g.packets ++ w.mails }

theorem progress_put_world (hopen : g.client.is_open = s.is_open k) (w : World) :
    (s.progress k g).put_world w = s.progress k (g.called w) := by
  unfold Server.put_world
  rw [progress_emit hopen]
  rfl

theorem packets_progress (hs : s.sent = []) :
    ((s.progress k g).sent.map fun m => (m.session, m.packet)) = g.packets := by
  simp only [Server.progress, hs, List.nil_append, List.map_map]
  exact List.map_id' g.packets

theorem packets_put_world (hs : s.sent = []) (w : World) :
    ((s.put_world w).sent.map fun m => (m.session, m.packet)) = w.mails := by
  simp only [Server.put_world, Server.emit, hs, List.nil_append, List.map_map]
  exact List.map_id' w.mails

theorem sent_progress (hs : s.sent = []) (m : Sent) (hm : m ∈ (s.progress k g).sent) :
    (m.session, m.packet) ∈ g.packets :=
  packets_progress hs ▸ List.mem_map_of_mem hm

theorem sent_put_world {w : World} (hs : s.sent = []) (m : Sent) (hm : m ∈ (s.put_world w).sent) :
    (m.session, m.packet) ∈ w.mails :=
  packets_put_world hs w ▸ List.mem_map_of_mem hm

/-- A call that sends nothing. -/
theorem Progress.called_silent {w : World} (h : w.notices = []) (g : Progress) : g.called w = { g with world := w } := by
  have hq : w.quiet = w := by simp [World.quiet, ← h]
  simp [Progress.called, World.mails, h, hq]

theorem in_world_ok {α : Type} {x : WorldM α} {a : α} {w : World} (h : x s.world = .ok a w) :
    in_world x s = .ok a (s.put_world w) := by
  simp [in_world, h]

theorem in_world_run {α : Type} {x : WorldM α} (hopen : g.client.is_open = s.is_open k) {a : α} {w : World}
    (h : x g.world = .ok a w) : in_world x (s.progress k g) = .ok a (s.progress k (g.called w)) := by
  rw [← progress_put_world hopen]
  exact in_world_ok h

theorem in_world_error {α : Type} {x : WorldM α} (hopen : g.client.is_open = s.is_open k) {f : Fault} {w : World}
    (h : x g.world = .error f w) : in_world x (s.progress k g) = .error f (s.progress k (g.called w)) := by
  have hx : x (s.progress k g).world = .error f w := h
  unfold in_world
  rw [hx, ← progress_put_world hopen]

theorem do_recv_closed (h : g.client.is_open = false) :
    net_session.do_recv k (s.progress k g) = .ok () (s.progress k g) := by
  unfold net_session.do_recv
  rw [bind_ok client_at_run]
  simp [h]

/-- The next packet is waited for. -/
def Progress.waiting (g : Progress) : Progress := { g with client := { g.client with receiving := true } }

theorem do_recv_open (h : g.client.is_open = true) (hr : g.client.receiving = false) :
    net_session.do_recv k (s.progress k g) = .ok () (s.progress k g.waiting) := by
  unfold net_session.do_recv
  rw [bind_ok client_at_run]
  simp only [h, hr, if_true, Bool.false_eq_true, if_false]
  exact modify_client_run _

/-- The session gives up its socket. -/
def Progress.closing (g : Progress) (k : SessionId) : Progress :=
  { g with client := { g.client with is_open := false, receiving := false }, tasks := g.tasks ++ [.finalize k] }

/-- The session is to go on in this state. -/
def Progress.changing (g : Progress) (k : SessionId) (new_state : ClientState) : Progress :=
  { g with
    client := { g.client with
      async_state := .awaiting_state_transition
      state_awaiting_transition := some new_state }
    tasks := g.tasks ++ [.transition k] }

theorem force_close_run : mmoclient.force_close k (s.progress k g) = .ok () (s.progress k (g.closing k)) := by
  unfold mmoclient.force_close
  rw [bind_ok (modify_client_run _)]
  exact schedule_task_run _

theorem schedule_transition_run (h : g.client.state_awaiting_transition = none) (new_state : ClientState) :
    mmoclient.schedule_transition k new_state (s.progress k g) = .ok () (s.progress k (g.changing k new_state)) := by
  unfold mmoclient.schedule_transition
  rw [bind_ok (modify_client_run _), bind_ok client_at_run, h]
  simp only
  rw [bind_ok (modify_client_run _)]
  exact schedule_task_run _

end run

section control

variable {s t : Server} {x : ServerM Unit}

theorem try_catch_ok {caught : StdException → Bool} (h : x s = .ok () t) (handler : ServerM Unit) :
    try_catch caught x handler s = .ok () t := tryCatch_ok h _

theorem try_catch_caught {caught : StdException → Bool} {e : StdException} (h : x s = .error (.exception e) t)
    (he : caught e = true) (handler : ServerM Unit) : try_catch caught x handler s = handler t := by
  unfold try_catch
  rw [tryCatch_error h]
  simp [he]

theorem try_catch_passes {caught : StdException → Bool} {f : Fault} (h : x s = .error f t)
    (hf : ∀ e, f = .exception e → caught e = false) (handler : ServerM Unit) :
    try_catch caught x handler s = .error f t := by
  unfold try_catch
  rw [tryCatch_error h]
  cases f with
  | exception e => simp [hf e rfl]
  | _ => rfl

theorem destructor_ok (h : x s = .ok () t) : destructor x s = .ok () t := tryCatch_ok h _

theorem construct_or_ok (h : x s = .ok () t) (destroy : ServerM Unit) : construct_or destroy x s = .ok () t :=
  tryCatch_ok h _

theorem construct_or_throws {e : StdException} {u : Server} {destroy : ServerM Unit}
    (h : x s = .error (.exception e) t) (hd : destroy t = .ok () u) :
    construct_or destroy x s = .error (.exception e) u := by
  unfold construct_or
  rw [tryCatch_error h]
  simp only
  rw [bind_ok (destructor_ok hd)]
  rfl

theorem construct_or_dies {f : Fault} (h : x s = .error f t) (hf : ∀ e, f ≠ .exception e) (destroy : ServerM Unit) :
    construct_or destroy x s = .error f t := by
  unfold construct_or
  rw [tryCatch_error h]
  cases f with
  | exception e => exact absurd rfl (hf e)
  | _ => rfl

theorem deserialize_ok {α : Type} {r : Except StdException α} {a : α} (h : r = .ok a) (s : Server) :
    deserialize r s = .ok a s := by
  subst h; rfl

theorem deserialize_error {α : Type} {r : Except StdException α} {e : StdException} (h : r = .error e) (s : Server) :
    deserialize r s = .error (.exception e) s := by
  subst h; rfl

end control

/-! ## The end and the beginning of an `ingame_state` -/

def ClientState.holds (p : EntityPtr) : ClientState → Prop
  | .ingame_state q _ => q = p
  | _ => False

/-- What becomes of the world, and what is sent, when the state of session `k`
is destroyed. -/
inductive Destroyed (k : SessionId) (w : World) : ClientState → World → List (SessionId × Packet) → Prop
  | ingame_state (p acc w1 c ns) : FriendEffect w (.unregister_me p) none w1 →
    ChatEffect w1.quiet (.unregister_me p) c ns →
    Destroyed k w (.ingame_state p acc) (w1.quiet.after c ns).quiet
      (w1.mails ++ (w1.quiet.after c ns).mails ++ [(k, .moved_to_lobby)])
  | other (st) : (∀ p, ¬ ClientState.holds p st) → Destroyed k w st w []

section states

variable {s : Server} {k : SessionId} {g : Progress}

theorem destroy_run {st : ClientState} (hopen : g.client.is_open = s.is_open k) (hok : WorldOk g.world)
    (hst : ∀ p, st.holds p → g.world.online p) :
    ∃ w ps, Destroyed k g.world st w ps ∧
      st.destroy k (s.progress k g) = .ok () (s.progress k { g with world := w, packets := g.packets ++ ps }) := by
  cases st with
  | ingame_state p acc =>
    obtain ⟨w1, c, ns, hf, hrun1, hc, hrun2⟩ := hok.leaves (hst p rfl)
    refine ⟨_, _, .ingame_state p acc w1 c ns hf hc, ?_⟩
    have h1 := in_world_run (x := (FriendOp.unregister_me p).run) hopen hrun1
    have h2 := in_world_run (g := g.called w1) (x := chat_system.unregister_me p) hopen hrun2
    have h3 := send_to_client_run (g := (g.called w1).called (w1.quiet.after c ns)) hopen .moved_to_lobby
    refine destructor_ok ((bind_ok h1 _).trans ((bind_ok h2 _).trans (h3.trans ?_)))
    simp [Progress.called]
  | null_state | preauth_state | lobby_state =>
    exact ⟨_, _, .other _ fun _ h => h, by simp [ClientState.destroy]⟩

/-- The character of a destroyed state leaves the game, and nobody else. -/
theorem Destroyed.left {w w' : World} {st : ClientState} {ps : List (SessionId × Packet)} (h : Destroyed k w st w' ps)
    (hok : WorldOk w) (hst : ∀ p, st.holds p → w.online p) :
    WorldOk w' ∧ ∀ q, w'.online q ↔ w.online q ∧ ¬ st.holds q := by
  cases h with
  | ingame_state p acc w1 c ns hf hc =>
    obtain ⟨h1, h2⟩ := hok.left (hst p rfl) hf hc
    refine ⟨h1.quiet, fun q => (h2 q).trans (and_congr_right fun _ => not_congr ?_)⟩
    exact eq_comm
  | other st hnone => exact ⟨hok, fun q => by simp [hnone q]⟩

variable {p : EntityPtr}

theorem build_returns (hopen : g.client.is_open = s.is_open k) (hq : g.world.notices = []) (hok : WorldOk g.world)
    (hnew : g.world.chat.entities p = none) (hfree : g.world.free p) (hself : ¬ g.world.own_friend p)
    (ha : g.world.db_answer = none) : ∃ w, FriendEffect (g.world.in_chat p) (.register_me p) none w ∧
      ingame_state.build k p (s.progress k g) = .ok () (s.progress k (g.called w)) := by
  obtain ⟨w, he, hrun⟩ := hok.register_returns hfree hself ha
  refine ⟨w, he, construct_or_ok ?_ _⟩
  rw [bind_ok (in_world_run hopen (register_chat_run hnew)), Progress.called_silent (by simp [World.in_chat, hq])]
  exact construct_or_ok (in_world_run (g := { g with world := g.world.in_chat p }) hopen hrun) _

/-- The friend list cannot be loaded: all that was built is destroyed. -/
theorem build_throws (hopen : g.client.is_open = s.is_open k) (hq : g.world.notices = []) (hok : WorldOk g.world)
    (hnew : g.world.chat.entities p = none) (hid : g.world.registry.id_to_character p.id = none) {e : StdException}
    (ha : g.world.db_answer = some e) :
    ingame_state.build k p (s.progress k g) =
      .error (.exception e) (s.progress k { g with
        world := g.world.executed (.friends_of p.id)
        packets := g.packets ++ [(k, .moved_to_lobby)] }) := by
  have hrun := hok.register_throws (p := p) hid ha
  have hundo := in_world_run (g := { g with world := (g.world.in_chat p).executed (.friends_of p.id) }) hopen
    (unregister_chat_run hok.consistent hnew (.friends_of p.id))
  rw [Progress.called_silent (by simp [hq])] at hundo
  refine construct_or_throws ?_
    (send_to_client_run (g := { g with world := g.world.executed (.friends_of p.id) }) hopen _)
  rw [bind_ok (in_world_run hopen (register_chat_run hnew)), Progress.called_silent (by simp [World.in_chat, hq])]
  refine construct_or_throws (in_world_error (g := { g with world := g.world.in_chat p }) hopen hrun) ?_
  rw [Progress.called_silent (by simp [World.in_chat, hq])]
  exact hundo

theorem build_dies (hopen : g.client.is_open = s.is_open k) (hq : g.world.notices = []) (hok : WorldOk g.world)
    (hnew : g.world.chat.entities p = none) (hp : g.world.clashes p) :
    ∃ w, g.world.Clash p w ∧
      ingame_state.build k p (s.progress k g) = .error .assertion_failed (s.progress k (g.called w)) := by
  obtain ⟨w, hclash, hrun⟩ := hok.register_dies hp
  refine ⟨w, hclash, construct_or_dies ?_ (fun e h => by cases h) _⟩
  rw [bind_ok (in_world_run hopen (register_chat_run hnew)), Progress.called_silent (by simp [World.in_chat, hq])]
  exact construct_or_dies (in_world_error (g := { g with world := g.world.in_chat p }) hopen hrun)
    (fun e h => by cases h) _

end states

end tejk_it_izi
