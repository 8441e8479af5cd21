import TejkItIzi.FriendInvariants
/-!
# Friendship needs fresh consent of both

A request that is still held was recorded in this run, and since then the two
have not been friends. At most one of the two requests of a pair is held, and
none while the two are friends; so a match uses up the consent it rests on.
-/

namespace tejk_it_izi

open ProgLib

/-- The two are friends, by the table and so by the lists. -/
def Friends (w : World) (a b : Nat) : Prop := b ∈ w.db.get_friends_of a

theorem friends_comm {w : World} {a b : Nat} : Friends w a b ↔ Friends w b a := Database.mem_get_friends_of_comm

/-- `friendMachine` under a clock that does not run backwards. -/
def clockedMachine : Machine World FriendEvent where
  init := friendMachine.init
  step w ev w' := friendMachine.step w ev w' ∧ w.env.now ≤ w'.env.now

/-- In the step the user `a` asks to be friends with `b`, and the request is
recorded: he is told that it was sent. -/
def Records (x : Taken World FriendEvent) (a b : Nat) : Prop :=
  ∃ p q name, x.event = .call (.process_req_friend_add p name) ∧ p.id = a ∧
    x.pre.registry.name_to_character name = some q ∧ q.id = b ∧
    (x.pre.friends.pending_requests.process_add_friend_request a b x.post.env.now).1 = .succesfully_added ∧
    (p, .friend_add_result .sent_succesfully name) ∈ x.post.notices

/-- In the step the user `s` asks to be friends with `r`, and they become friends. -/
def MakesFriends (x : Taken World FriendEvent) (s r : Nat) : Prop :=
  ∃ p q name, x.event = .call (.process_req_friend_add p name) ∧ p.id = s ∧
    x.pre.registry.name_to_character name = some q ∧ q.id = r ∧ ¬ Friends x.pre s r ∧ Friends x.post s r

/-- A request of `a` to `b` would be found now. -/
def Live (w : World) (a b : Nat) : Prop := w.friends.pending_requests.Held ⟨a, b⟩ w.env.now

/-- No request is held twice, or together with its answer, or between friends. -/
structure PendingInv (w : World) : Prop where
  layered : w.friends.pending_requests.Layered w.env.now
  one_way : ∀ a b, Live w a b → ¬ Live w b a
  not_friends : ∀ a b, Live w a b → ¬ Friends w a b

/-- Fewer requests are held, and fewer players friends. -/
theorem PendingInv.of_fewer {w w' : World} (h : PendingInv w)
    (hlayered : w'.friends.pending_requests.Layered w'.env.now) (hl : ∀ a b, Live w' a b → Live w a b)
    (hf : ∀ a b, Friends w' a b → Friends w a b) : PendingInv w' where
  layered := hlayered
  one_way a b ha hb := h.one_way a b (hl a b ha) (hl b a hb)
  not_friends a b ha hb := h.not_friends a b (hl a b ha) (hf a b hb)

theorem PendingInv.later {w : World} (h : PendingInv w) (w' : World)
    (hp : w'.friends.pending_requests = w.friends.pending_requests) (hn : w.env.now ≤ w'.env.now)
    (hf : ∀ a b, Friends w' a b → Friends w a b) : PendingInv w' ∧ ∀ a b, Live w' a b → Live w a b := by
  have hl (a b : Nat) (h : Live w' a b) : Live w a b := by
    unfold Live at h ⊢
    rw [hp] at h
    exact PendingFriendRequests.held_mono hn h
  refine ⟨h.of_fewer ?_ hl hf, hl⟩
  rw [hp]
  exact h.layered.mono hn

theorem FriendEffect.now {w w' : World} {op : FriendOp} {res : Option StdException} (h : FriendEffect w op res w') :
    w'.env.now = w.env.now := by
  cases h <;> rfl

/-- The held requests after a call were held before, or the call recorded them. -/
theorem FriendEffect.pending {w w' : World} {op : FriendOp} (h : FriendEffect w op none w') (w0 : World)
    (hi : FriendInv w) (hpi : PendingInv w) (hreg : w0.registry = w.registry)
    (hpen : w0.friends.pending_requests = w.friends.pending_requests) :
    PendingInv w' ∧ ∀ a b, Live w' a b → Live w a b ∨ Records ⟨w0, .call op, w'⟩ a b := by
  have hsame {w' : World} (hp : w'.friends.pending_requests = w.friends.pending_requests)
      (hn : w'.env.now = w.env.now) (hf : ∀ a b, Friends w' a b → Friends w a b) :
      PendingInv w' ∧ ∀ a b, Live w' a b → Live w a b ∨ Records ⟨w0, .call op, w'⟩ a b := by
    obtain ⟨h1, h2⟩ := hpi.later _ hp hn.ge hf
    exact ⟨h1, fun a b hl => .inl (h2 a b hl)⟩
  generalize hres : (none : Option StdException) = res at h
  cases h with
  | register_me_fails p e ha => cases hres
  | remove_lookup_fails p name e ha => cases hres
  | add_waiting p name q l hl hq hne hm hr =>
    have hback (a b : Nat) (hlive : (w.friends.pending_requests.process_add_friend_request p.id q.id
        w.env.now).2.Held ⟨a, b⟩ w.env.now) : Live w a b :=
      PendingFriendRequests.held_of_not_added (by rw [hr]; simp) hlive
    exact ⟨hpi.of_fewer (PendingFriendRequests.layered_process hpi.layered) hback fun a b hb => hb,
      fun a b ha => .inl (hback a b ha)⟩
  | add_recorded p name q l hl hq hne hm hr =>
    have hback {a b : Nat} (hlive : (w.friends.pending_requests.process_add_friend_request p.id q.id
        w.env.now).2.Held ⟨a, b⟩ w.env.now) : Live w a b ∨ (a = p.id ∧ b = q.id) := by
      rcases PendingFriendRequests.held_process hlive with h | ⟨heq, _⟩
      · exact .inl h
      · exact .inr ⟨congrArg SingleFriendRequest.request_sender_id heq,
          congrArg SingleFriendRequest.recipient_id heq⟩
    obtain ⟨hno, _⟩ := PendingFriendRequests.added_iff.1 hr
    refine ⟨⟨PendingFriendRequests.layered_process hpi.layered, fun a b ha hb => ?_, fun a b ha hb => ?_⟩,
      fun a b ha => ?_⟩
    · rcases hback ha with ha | ⟨rfl, rfl⟩ <;> rcases hback hb with hb | ⟨hb1, hb2⟩
      · exact hpi.one_way a b ha hb
      · subst hb1 hb2; exact hno ha
      · exact hno hb
      · exact hne hb1
    · rcases hback ha with ha | ⟨rfl, rfl⟩
      · exact hpi.not_friends a b ha hb
      · exact hm ((hi.agree p.id l hl q.id).2 hb)
    · refine (hback ha).imp id ?_
      rintro ⟨rfl, rfl⟩
      exact ⟨p, q, name, rfl, rfl, by rw [hreg]; exact hq, rfl, by rw [hpen]; exact hr, by simp⟩
  | add_match p name q l l' hl hq hne hm hl' hr =>
    have hback {a b : Nat} (hlive : (w.friends.pending_requests.process_add_friend_request p.id q.id
        w.env.now).2.Held ⟨a, b⟩ w.env.now) : Live w a b :=
      PendingFriendRequests.held_of_not_added (by rw [hr]; simp) hlive
    have hheld : Live w q.id p.id := PendingFriendRequests.match_iff.1 hr
    refine ⟨⟨PendingFriendRequests.layered_process hpi.layered,
      fun a b ha hb => hpi.one_way a b (hback ha) (hback hb), fun a b ha hb => ?_⟩, fun a b ha => .inl (hback ha)⟩
    unfold Friends at hb
    rw [World.committed_db _ _ _ _ _ hres.symm, Database.mem_friends_make] at hb
    rcases hb with hb | ⟨rfl, rfl⟩ | ⟨rfl, rfl⟩
    · exact hpi.not_friends a b (hback ha) hb
    · -- The answered request is gone.
      exact PendingFriendRequests.not_held_of_match hpi.layered hheld ha
    · exact hpi.one_way _ _ hheld (hback ha)
  | remove_offline p name l id ha hl hid h0 hm hl' =>
    refine hsame rfl rfl fun a b hb => ?_
    unfold Friends at hb
    rw [World.committed_db _ _ _ _ _ hres.symm, Database.mem_friends_remove hi.first_smaller] at hb
    exact hb.1
  | remove_online p name l q l' ha hl hid h0 hm hne hon hl' =>
    refine hsame rfl rfl fun a b hb => ?_
    unfold Friends at hb
    rw [World.committed_db _ _ _ _ _ hres.symm, Database.mem_friends_remove hi.first_smaller] at hb
    exact hb.1
  | cleanup =>
    have hback (a b : Nat) (hlive : w.friends.pending_requests.periodic_cleanup.Held ⟨a, b⟩ w.env.now) :
        Live w a b := PendingFriendRequests.held_cleanup hlive
    exact ⟨hpi.of_fewer (PendingFriendRequests.layered_cleanup _ _) hback fun a b hb => hb,
      fun a b ha => .inl (hback a b ha)⟩
  | _ => exact hsame rfl rfl fun a b hb => hb

/-! ## Runs -/

theorem not_live_init {w : World} (h : clockedMachine.init w) (a b : Nat) : ¬ Live w a b := by
  unfold Live
  rw [h.1]
  exact PendingFriendRequests.not_held_empty _ _

theorem pending_inv_init {w : World} (h : clockedMachine.init w) : PendingInv w where
  layered := by rw [h.1]; exact PendingFriendRequests.layered_empty _
  one_way a b ha := absurd ha (not_live_init h a b)
  not_friends a b ha := absurd ha (not_live_init h a b)

/-- One step: the invariant, and where the held requests come from. -/
theorem pending_step {w w' : World} {ev : FriendEvent} (hi : FriendInv w) (hpi : PendingInv w)
    (hs : clockedMachine.step w ev w') :
    PendingInv w' ∧ ∀ a b, Live w' a b → Live w a b ∨ Records ⟨w, ev, w'⟩ a b := by
  obtain ⟨hs, hclock⟩ := hs
  cases ev with
  | call op =>
    obtain ⟨env, _, he⟩ := friend_call_effect hi hs
    rw [he.now] at hclock
    obtain ⟨hpi', hlive⟩ := hpi.later (w.begin env) rfl hclock fun a b h => h
    obtain ⟨h1, h2⟩ := he.pending w (hi.begin env) hpi' rfl rfl
    exact ⟨h1, fun a b h => (h2 a b h).imp_left (hlive a b)⟩
  | other_tables =>
    obtain ⟨db, hdb, rfl⟩ := hs
    obtain ⟨h1, h2⟩ := hpi.later { w.begin w.env with db := db } rfl hclock fun a b h => by
      simpa only [Friends, Database.mem_get_friends_of, hdb] using h
    exact ⟨h1, fun a b h => .inl (h2 a b h)⟩
  | reorder =>
    obtain ⟨h, _, _⟩ := hs
    obtain ⟨h1, h2⟩ := hpi.later _ h.pending_requests hclock fun a b hab => h.friends_of.1 hab
    exact ⟨h1, fun a b h => .inl (h2 a b h)⟩

theorem clocked_friend_inv {w : World} (h : clockedMachine.Reachable w) : FriendInv w :=
  reachable_friend_inv (h.of_steps (fun _ h0 => h0) fun _ _ _ hs => hs.1)

theorem reachable_pending_inv {w : World} (h : clockedMachine.Reachable w) : PendingInv w :=
  h.keeps_over (fun _ => clocked_friend_inv) (fun _ => pending_inv_init) fun _ _ _ hi hpi hs => (pending_step hi hpi hs).1

/-- Whoever becomes friends with `r` by asking answers a request of `r`. -/
theorem live_of_makes {w w' : World} {ev : FriendEvent} {s r : Nat} (hi : FriendInv w)
    (hs : clockedMachine.step w ev w') (h : MakesFriends ⟨w, ev, w'⟩ s r) : Live w r s := by
  obtain ⟨hs, hclock⟩ := hs
  obtain ⟨p, q, name, rfl, rfl, hname, rfl, hno, hyes⟩ := h
  obtain ⟨env, _, he⟩ := friend_call_effect hi hs
  have hnow := he.now
  generalize hres : (none : Option StdException) = res at he
  cases he with
  | add_match _ _ q' l l' hl hq hne hm hl' hres =>
    have hqq : q = q' := Option.some.inj (hname.symm.trans hq)
    subst hqq
    rw [hnow] at hclock
    exact PendingFriendRequests.held_mono hclock (PendingFriendRequests.match_iff.1 hres)
  | _ => exact absurd hyes hno

/-- In every database, in a run from a table with the smaller id first in which no
friend is to be removed whose name has a quote: whenever `s` becomes friends with
`r` by asking, `r` had asked before in the same run, his request was recorded, and
since then the two were friends in no state and no other step made them friends.
So a friendship seen at some moment does not come back, once it is over, before
the other side asks again after that moment; and no two friendships rest on one
request. -/
theorem friendship_needs_fresh_consent (reading : QueryReading) {w0 w : World} {tr : List (Taken World FriendEvent)}
    (h0 : (readMachine reading).init w0) (hfirst : w0.db.FirstSmaller) (hrun : (readMachine reading).Run w0 tr w)
    (hclock : ∀ x ∈ tr, x.pre.env.now ≤ x.post.env.now) (hplain : ∀ x ∈ tr, x.event.Plain)
    {l rest : List (Taken World FriendEvent)} {x : Taken World FriendEvent} {s r : Nat} (htr : tr = l ++ x :: rest)
    (hx : MakesFriends x s r) :
    (∃ l1 y l2, l = l1 ++ y :: l2 ∧ Records y r s ∧ ∀ z ∈ y :: l2, ¬ Friends z.post s r ∧
      ¬ MakesFriends z s r ∧ ¬ MakesFriends z r s) ∧
    ∀ l1 z l2, l = l1 ++ z :: l2 → Friends z.post s r → ∃ y ∈ l2, Records y r s := by
  have h : clockedMachine.Run w0 tr w := (plain_run hrun hplain).of_steps fun x hx hs => ⟨hs, hclock x hx⟩
  have h0 : clockedMachine.init w0 := ⟨h0.1, h0.2, hfirst⟩
  subst htr
  obtain ⟨w1, h1, h2⟩ := Machine.run_append.1 h
  obtain ⟨rfl, hs, _⟩ := Machine.run_cons.1 h2
  have hinv : ∀ y ∈ l, FriendInv y.pre ∧ PendingInv y.pre := by
    intro y hy
    have hpre := h1.reachable_pre (.init h0) hy
    exact ⟨clocked_friend_inv hpre, reachable_pending_inv hpre⟩
  have hi := clocked_friend_inv ((Machine.Reachable.init h0).run h1)
  have hlive := live_of_makes hi hs hx
  obtain ⟨l1, y, l2, hl, hy, hsince⟩ := h1.since (L := fun w => Live w r s) (A := fun y => Records y r s)
    (G := fun w => ¬ Friends w s r) (not_live_init h0 r s) (fun y hy hly => by
      obtain ⟨hpi', hback⟩ := pending_step (hinv y hy).1 (hinv y hy).2 (h1.step_of_mem hy)
      exact ⟨hback r s hly, fun hf => hpi'.not_friends r s hly (friends_comm.1 hf)⟩) hlive
  refine ⟨⟨l1, y, l2, hl, hy, fun z hz => ⟨hsince z hz, ?_, ?_⟩⟩, ?_⟩
  · rintro ⟨_, _, _, _, _, _, _, _, hf⟩
    exact hsince z hz hf
  · rintro ⟨_, _, _, _, _, _, _, _, hf⟩
    exact hsince z hz (friends_comm.1 hf)
  · intro m1 z m2 hm hf
    -- `z` cannot come after `y`, so `y` comes after `z`.
    rw [hl, List.append_eq_append_iff] at hm
    rcases hm with ⟨a, rfl, ha⟩ | ⟨a, rfl, ha⟩
    · have hz : z ∈ y :: l2 := by rw [ha]; simp
      exact absurd hf (hsince z hz)
    · cases a with
      | nil =>
        simp only [List.nil_append, List.cons.injEq] at ha
        exact absurd hf (ha.1 ▸ hsince y List.mem_cons_self)
      | cons b a =>
        simp only [List.cons_append, List.cons.injEq] at ha
        exact ⟨y, by rw [ha.2]; simp, hy⟩

theorem clocked_meeting : ∀ x ∈ meeting_steps, x.pre.env.now ≤ x.post.env.now := by
  intro x hx
  simp only [meeting_steps, List.mem_cons, List.not_mem_nil, or_false] at hx
  rcases hx with rfl | rfl | rfl | rfl <;> exact le_refl _

theorem carol_answers : MakesFriends (played_step 3 (.process_req_friend_add carol (ascii "bob"))) 9 8 :=
  ⟨carol, bob, ascii "bob", rfl, rfl, rfl, rfl, by unfold Friends; decide, by unfold Friends; decide⟩

theorem bob_had_asked : ∃ l1 y l2, meeting_steps.take 3 = l1 ++ y :: l2 ∧ Records y 8 9 := by
  obtain ⟨⟨l1, y, l2, hl, hy, _⟩, _⟩ := friendship_needs_fresh_consent injectable ⟨rfl, rfl⟩ fresh_init.2.2
    (meeting_read injectable).1 clocked_meeting (meeting_read injectable).2 (l := meeting_steps.take 3) rfl carol_answers
  exact ⟨l1, y, l2, hl, hy⟩

/-! ## Carol answers a request from before a friendship -/

/-- The last step answers the request of 8 to 9 that was recorded in the step `y`;
no other was, and since then the two were friends. -/
def AnswersStale (tr : List (Taken World FriendEvent)) : Prop :=
  ∃ l1 y l2 x, tr = l1 ++ y :: l2 ++ [x] ∧ Records y 8 9 ∧ (∀ z ∈ l1 ++ l2, ¬ Records z 8 9) ∧
    (∃ z ∈ l2, Friends z.post 9 8) ∧
    x.event = .call (.process_req_friend_add carol (ascii "bob")) ∧
    (carol, .new_friendship (ascii "bob")) ∈ x.post.notices

theorem not_records_of_event {x : Taken World FriendEvent} {a b : Nat}
    (h : ∀ p name, x.event ≠ .call (.process_req_friend_add p name)) : ¬ Records x a b := by
  rintro ⟨p, q, name, hev, _⟩
  exact h p name hev

/-- The two are in the table, the greater id first. -/
def backwards : World := World.fresh { befriended.db with character_friends := [⟨9, 8⟩] }

def strangers : World := World.fresh { befriended.db with character_friends := [] }

/-- The world after this call. -/
def World.after_call (w : World) (op : FriendOp) : World := endState op.run (w.begin ⟨0, 0, 0, []⟩)

/-- These calls, made one after the other. -/
def calls (w : World) : List FriendOp → List (Taken World FriendEvent)
  | [] => []
  | op :: ops => ⟨w, .call op, w.after_call op⟩ :: calls (w.after_call op) ops

/-- Each of them is permitted, has no quote, and returns. -/
def CallsReturn (w : World) : List FriendOp → Prop
  | [] => True
  | op :: ops => op.Permitted (w.begin ⟨0, 0, 0, []⟩) ∧ op.Plain ∧
    op.run (w.begin ⟨0, 0, 0, []⟩) = .ok () (w.after_call op) ∧ CallsReturn (w.after_call op) ops

theorem calls_run (r : QueryReading) (w : World) (ops : List FriendOp) (h : CallsReturn w ops) :
    (readMachine r).Run w (calls w ops) (ops.foldl World.after_call w) := by
  induction ops generalizing w with
  | nil => exact .nil
  | cons op ops ih =>
    obtain ⟨hop, hplain, hrun, hrest⟩ := h
    refine Machine.run_cons.2 ⟨rfl, ⟨⟨0, 0, 0, []⟩, rfl, hop, ?_⟩, ih _ hrest⟩
    rw [op.run_by_plain r hplain]
    exact hrun

/-- Both come, bob removes carol, asks her, goes and comes back; she asks him. -/
def reunion : List FriendOp :=
  [.register_me bob, .register_me carol, .process_req_friend_remove bob (ascii "carol"),
    .process_req_friend_add bob (ascii "carol"), .unregister_me bob, .register_me bob,
    .process_req_friend_add carol (ascii "bob")]

theorem reunion_returns : CallsReturn backwards reunion :=
  ⟨⟨rfl, rfl⟩, trivial, rfl, ⟨rfl, rfl⟩, trivial, rfl, rfl, (by decide : quote ∉ ascii "carol"), rfl, rfl, trivial, rfl,
    rfl, trivial, rfl, ⟨rfl, rfl⟩, trivial, rfl, rfl, trivial, rfl, trivial⟩

theorem reunion_stale : AnswersStale (calls backwards reunion) := by
  refine ⟨(calls backwards reunion).take 3, _, ((calls backwards reunion).drop 4).take 2, _, rfl,
    ⟨bob, carol, ascii "carol", rfl, rfl, rfl, rfl, rfl, by decide⟩, ?_, ?_, rfl, ?_⟩
  · intro z hz
    refine not_records_of_event fun p name => ?_
    simp only [calls, reunion, List.take, List.drop, List.cons_append, List.nil_append, List.mem_cons,
      List.not_mem_nil, or_false] at hz
    rcases hz with rfl | rfl | rfl | rfl | rfl <;> exact nofun
  · exact ⟨_, List.mem_cons_self, by unfold Friends; decide⟩
  · exact List.mem_cons_self

/-- Both come, and bob asks carol. -/
def courtship : List FriendOp := [.register_me bob, .register_me carol, .process_req_friend_add bob (ascii "carol")]

def bob_asked_carol : World := courtship.foldl World.after_call strangers

/-- Bob writes the two into the table. -/
def forged : World := bob_asked_carol.bob_refused befriending befriended.db

def unforged : World := forged.bob_refused emptying strangers.db

/-- He takes them out again, and carol asks him. -/
def forgery : List (Taken World FriendEvent) :=
  [⟨bob_asked_carol, .call (.process_req_friend_remove bob befriending), forged⟩,
    ⟨forged, .call (.process_req_friend_remove bob emptying), unforged⟩] ++
  calls unforged [.process_req_friend_add carol (ascii "bob")]

theorem injectable_befriends (db : Database) : injectable.lookup (Statement.char_name_to_uid befriending).text db =
    (.ok 0, { db with character_friends := db.character_friends ++ [⟨8, 9⟩] }) :=
  ((QueryReading.lookup_other (by decide +kernel) db).trans (if_neg (by decide +kernel))).trans (if_pos rfl)

theorem forgery_run : (readMachine injectable).Run strangers (calls strangers courtship ++ forgery)
    (unforged.after_call (.process_req_friend_add carol (ascii "bob"))) := by
  have h1 := calls_run injectable strangers courtship
    ⟨⟨rfl, rfl⟩, trivial, rfl, ⟨rfl, rfl⟩, trivial, rfl, rfl, trivial, rfl, trivial⟩
  have h2 : (readMachine injectable).step bob_asked_carol (.call (.process_req_friend_remove bob befriending)) forged :=
    bob_refused_step rfl rfl rfl (injectable_befriends _)
  have h3 : (readMachine injectable).step forged (.call (.process_req_friend_remove bob emptying)) unforged :=
    bob_refused_step rfl rfl rfl (injectable_empties _)
  have h4 := calls_run injectable unforged [.process_req_friend_add carol (ascii "bob")]
    ⟨rfl, trivial, rfl, trivial⟩
  exact h1.trans (((Machine.Run.nil.snoc h2).snoc h3).trans h4)

theorem forgery_stale : AnswersStale (calls strangers courtship ++ forgery) := by
  refine ⟨(calls strangers courtship).take 2, _, forgery.take 2, _, rfl,
    ⟨bob, carol, ascii "carol", rfl, rfl, rfl, rfl, rfl, by decide⟩, ?_, ?_, rfl, ?_⟩
  · intro z hz
    refine not_records_of_event fun p name => ?_
    simp only [calls, courtship, forgery, List.take, List.cons_append, List.nil_append, List.mem_cons,
      List.not_mem_nil, or_false] at hz
    rcases hz with rfl | rfl | rfl | rfl <;> exact nofun
  · exact ⟨_, List.mem_cons_self, by unfold Friends; decide⟩
  · exact List.mem_cons_self

/-- From a table with the greater id first, in every database; and from one with
the smaller first, if bob's names are carried out. -/
theorem consent_gone_stale :
    (∀ r : QueryReading, ∃ tr w, (readMachine r).init backwards ∧ (readMachine r).Run backwards tr w ∧
      (∀ x ∈ tr, x.pre.env.now ≤ x.post.env.now) ∧ AnswersStale tr) ∧
    ∃ tr w, (readMachine injectable).init strangers ∧ strangers.db.FirstSmaller ∧
      (readMachine injectable).Run strangers tr w ∧ (∀ x ∈ tr, x.pre.env.now ≤ x.post.env.now) ∧ AnswersStale tr := by
  refine ⟨fun r => ⟨_, _, ⟨rfl, rfl⟩, calls_run r _ _ reunion_returns, ?_, reunion_stale⟩,
    _, _, ⟨rfl, rfl⟩, fun r h => absurd h List.not_mem_nil, forgery_run, ?_, forgery_stale⟩
  · intro x hx
    simp only [calls, reunion, List.mem_cons, List.not_mem_nil, or_false] at hx
    rcases hx with rfl | rfl | rfl | rfl | rfl | rfl | rfl <;> exact le_refl _
  · intro x hx
    simp only [calls, courtship, forgery, List.cons_append, List.nil_append, List.mem_cons, List.not_mem_nil,
      or_false] at hx
    rcases hx with rfl | rfl | rfl | rfl | rfl | rfl <;> exact le_refl _

end tejk_it_izi
