import TejkItIzi.FriendEffects
import TejkItIzi.Lib.Runs
/-!
# One relation of friends

A friendship is kept in up to three places. In every reachable world they agree:
the list of an online player is what the table says about him, so the lists are
symmetric, and the table has each pair once and in order.
-/

namespace tejk_it_izi

open ProgLib

/-! ## The same players -/

section SamePlayers

variable {r : WorldRegistrar} {f : FriendSystem} {p : EntityPtr} {l l' : FriendList} {i : Nat}

theorem SamePlayers.add (h : SamePlayers r f) (hid : r.id_to_character p.id = none)
    (hname : r.name_to_character p.name = none) (hb : l.backend = p) :
    SamePlayers (r.add p) (f.put p.id (some l)) where
  by_id j q hq := by
    by_cases hj : j = p.id
    · subst hj
      simp only [WorldRegistrar.add, Function.update_self, Option.some.injEq] at hq ⊢
      subst hq
      exact ⟨rfl, Function.update_self ..⟩
    · simp only [WorldRegistrar.add, Function.update_of_ne hj] at hq ⊢
      obtain ⟨h1, h2⟩ := h.by_id j q hq
      have hn : q.name ≠ p.name := by rintro he; rw [he, hname] at h2; cases h2
      exact ⟨h1, by rw [Function.update_of_ne hn]; exact h2⟩
  by_name n q hq := by
    by_cases hn : n = p.name
    · subst hn
      simp only [WorldRegistrar.add, Function.update_self, Option.some.injEq] at hq ⊢
      subst hq
      exact ⟨rfl, Function.update_self ..⟩
    · simp only [WorldRegistrar.add, Function.update_of_ne hn] at hq ⊢
      obtain ⟨h1, h2⟩ := h.by_name n q hq
      have hi : q.id ≠ p.id := by rintro he; rw [he, hid] at h2; cases h2
      exact ⟨h1, by rw [Function.update_of_ne hi]; exact h2⟩
  list_online j k hk := by
    by_cases hj : j = p.id
    · subst hj
      rw [FriendSystem.put_self] at hk
      cases hk
      rw [hb]
      exact Function.update_self ..
    · rw [FriendSystem.put_ne _ hj] at hk
      simp only [WorldRegistrar.add, Function.update_of_ne hj]
      exact h.list_online j k hk
  online_list j q hq := by
    by_cases hj : j = p.id
    · subst hj; simp
    · simp only [WorldRegistrar.add, Function.update_of_ne hj] at hq
      rw [FriendSystem.put_ne _ hj]
      exact h.online_list j q hq

theorem SamePlayers.remove (h : SamePlayers r f) (hp : r.id_to_character p.id = some p) :
    SamePlayers (r.remove p) (f.put p.id none) where
  by_id j q hq := by
    by_cases hj : j = p.id
    · subst hj; simp [WorldRegistrar.remove] at hq
    · simp only [WorldRegistrar.remove, Function.update_of_ne hj] at hq ⊢
      obtain ⟨h1, h2⟩ := h.by_id j q hq
      have hn : q.name ≠ p.name := by
        intro he
        rw [he, (h.by_id p.id p hp).2] at h2
        exact hj (h1 ▸ congrArg (·.id) (Option.some.inj h2).symm)
      exact ⟨h1, by rw [Function.update_of_ne hn]; exact h2⟩
  by_name n q hq := by
    by_cases hn : n = p.name
    · subst hn; simp [WorldRegistrar.remove] at hq
    · simp only [WorldRegistrar.remove, Function.update_of_ne hn] at hq ⊢
      obtain ⟨h1, h2⟩ := h.by_name n q hq
      have hi : q.id ≠ p.id := by
        intro he
        rw [he, hp] at h2
        exact hn (h1 ▸ congrArg (·.name) (Option.some.inj h2).symm)
      exact ⟨h1, by rw [Function.update_of_ne hi]; exact h2⟩
  list_online j k hk := by
    by_cases hj : j = p.id
    · subst hj; simp at hk
    · rw [FriendSystem.put_ne _ hj] at hk
      simp only [WorldRegistrar.remove, Function.update_of_ne hj]
      exact h.list_online j k hk
  online_list j q hq := by
    by_cases hj : j = p.id
    · subst hj; simp [WorldRegistrar.remove] at hq
    · simp only [WorldRegistrar.remove, Function.update_of_ne hj] at hq
      rw [FriendSystem.put_ne _ hj]
      exact h.online_list j q hq

/-- Another list for a player who has one. -/
theorem SamePlayers.put (h : SamePlayers r f) (hl : f.friendlist_of_id i = some l) (hb : l'.backend = l.backend) :
    SamePlayers r (f.put i (some l')) where
  by_id := h.by_id
  by_name := h.by_name
  list_online j k hk := by
    by_cases hj : j = i
    · subst hj
      rw [FriendSystem.put_self] at hk
      cases hk
      rw [hb]
      exact h.list_online j l hl
    · rw [FriendSystem.put_ne _ hj] at hk
      exact h.list_online j k hk
  online_list j q hq := by
    by_cases hj : j = i
    · subst hj; simp
    · rw [FriendSystem.put_ne _ hj]
      exact h.online_list j q hq

theorem SamePlayers.with_pending (h : SamePlayers r f) (pending : PendingFriendRequests) :
    SamePlayers r (f.with_pending pending) := ⟨h.by_id, h.by_name, h.list_online, h.online_list⟩

theorem SamePlayers.add_friend (h : SamePlayers r f) (hl : f.friendlist_of_id p.id = some l) (i : Nat) :
    SamePlayers r (f.add_friend p l i) := h.put hl rfl

theorem SamePlayers.drop_friend (h : SamePlayers r f) (hl : f.friendlist_of_id p.id = some l) (i : Nat) :
    SamePlayers r (f.drop_friend p l i) := h.put hl rfl

end SamePlayers

/-! ## The invariant -/

/-- What also holds when statements fail, and whatever the tables are. -/
structure FriendsOk (w : World) : Prop where
  same_players : SamePlayers w.registry w.friends
  not_own : ∀ i l, w.friends.friendlist_of_id i = some l → i ∉ l.friend_ids

structure FriendInv (w : World) : Prop where
  same_players : SamePlayers w.registry w.friends
  agree : ∀ i l, w.friends.friendlist_of_id i = some l → ∀ j, j ∈ l.friend_ids ↔ j ∈ w.db.get_friends_of i
  first_smaller : w.db.FirstSmaller

/-- Nothing else of the world matters. -/
theorem FriendsOk.same {w w' : World} (h : FriendsOk w) (hr : w'.registry = w.registry) (hf : w'.friends = w.friends) :
    FriendsOk w' where
  same_players := by
    rw [hr, hf]
    exact h.same_players
  not_own := by
    rw [hf]
    exact h.not_own

theorem FriendInv.friends_ok {w : World} (h : FriendInv w) : FriendsOk w where
  same_players := h.same_players
  not_own i l hl := by
    rw [h.agree i l hl]
    exact h.first_smaller.not_own_friend i

theorem FriendInv.effect_of {w : World} (h : FriendInv w) {op : FriendOp} (hop : op.Permitted w) :
    ∃ res w', FriendEffect w op res w' ∧ op.run w = finish res w' :=
  friend_system.effect_of h.same_players h.friends_ok.not_own hop fun p _ _ => h.first_smaller.not_own_friend p.id

/-- The lists say of each other what they say of themselves. -/
theorem FriendInv.symmetric {w : World} (h : FriendInv w) {a b : Nat} {la lb : FriendList}
    (ha : w.friends.friendlist_of_id a = some la) (hb : w.friends.friendlist_of_id b = some lb) :
    b ∈ la.friend_ids ↔ a ∈ lb.friend_ids := by
  rw [h.agree a la ha, h.agree b lb hb]
  exact Database.mem_get_friends_of_comm

section lists

variable {f : FriendSystem} {p : EntityPtr} {l k : FriendList} {id i : Nat}

/-- Only `p`'s list changes, by one id. -/
theorem list_add_friend (hl : f.friendlist_of_id p.id = some l)
    (hk : (f.add_friend p l id).friendlist_of_id i = some k) :
    ∃ k0, f.friendlist_of_id i = some k0 ∧ ∀ j, j ∈ k.friend_ids ↔ j ∈ k0.friend_ids ∨ (i = p.id ∧ j = id) := by
  unfold FriendSystem.add_friend at hk
  by_cases hi : i = p.id
  · subst hi
    rw [FriendSystem.put_self] at hk
    cases hk
    exact ⟨l, hl, fun j => by rw [USet.mem_insert]; tauto⟩
  · rw [FriendSystem.put_ne _ hi] at hk
    exact ⟨k, hk, fun j => by simp [hi]⟩

theorem list_drop_friend (hl : f.friendlist_of_id p.id = some l)
    (hk : (f.drop_friend p l id).friendlist_of_id i = some k) :
    ∃ k0, f.friendlist_of_id i = some k0 ∧ ∀ j, j ∈ k.friend_ids ↔ j ∈ k0.friend_ids ∧ ¬ (i = p.id ∧ j = id) := by
  unfold FriendSystem.drop_friend at hk
  by_cases hi : i = p.id
  · subst hi
    rw [FriendSystem.put_self] at hk
    cases hk
    exact ⟨l, hl, fun j => by rw [USet.mem_erase]; tauto⟩
  · rw [FriendSystem.put_ne _ hi] at hk
    exact ⟨k, hk, fun j => by simp [hi]⟩

end lists

theorem World.committed_keeps {w : World} {P : Database → Prop} (st : Statement) {db : Database} (hw : P w.db)
    (hdb : P db) : P (w.committed st db).db := by
  unfold World.committed
  dsimp only
  split
  · exact hdb
  · exact hw

/-- However a call ends, a table with the smaller id first stays so. -/
theorem FriendEffect.first_smaller {w w' : World} {op : FriendOp} {res : Option StdException}
    (h : FriendEffect w op res w') (hw : w.db.FirstSmaller) : w'.db.FirstSmaller := by
  cases h with
  | add_match p name q l l' hl hq hne hm hl' hr => exact World.committed_keeps _ hw (hw.make_friends hne)
  | remove_offline | remove_online => exact World.committed_keeps _ hw (hw.remove_friends _ _)
  | _ => exact hw

theorem Removal.friends_ok {w w' : World} {p : EntityPtr} {name : Bytes} {id : Nat} {res : Option StdException}
    (h : Removal w p name id res w') (hi : FriendsOk w) : FriendsOk w' := by
  have hs := hi.same_players
  cases h with
  | refused l hl hf => exact ⟨hs, hi.not_own⟩
  | offline l hl h0 hm hl' =>
    refine ⟨hs.drop_friend hl _, fun i k hk => ?_⟩
    obtain ⟨k0, hk0, h0⟩ := list_drop_friend hl hk
    rw [h0]
    exact fun h => hi.not_own i k0 hk0 h.1
  | online l q l' hl hid h0 hm hne hon hl' =>
    have hl2 : (w.friends.drop_friend p l q.id).friendlist_of_id q.id = some l' :=
      (FriendSystem.put_ne _ hne _).trans hl'
    refine ⟨(hs.drop_friend hl _).drop_friend hl2 _, fun i k hk => ?_⟩
    obtain ⟨k1, hk1, h1⟩ := list_drop_friend hl2 hk
    obtain ⟨k0, hk0, h0⟩ := list_drop_friend hl hk1
    rw [h1, h0]
    exact fun h => hi.not_own i k0 hk0 h.1.1

/-- However a call ends, the players stay the same and nobody gets on his own list. -/
theorem FriendEffect.friends_ok {w w' : World} {op : FriendOp} {res : Option StdException}
    (h : FriendEffect w op res w') (hi : FriendsOk w) (hop : op.Permitted w) : FriendsOk w' := by
  have hs := hi.same_players
  cases h with
  | register_me p ha hself =>
    obtain ⟨hid, hname⟩ := hop
    refine ⟨hs.add hid hname rfl, fun i l hl => ?_⟩
    by_cases hp : i = p.id
    · subst hp
      simp only [World.with_registry_friends, World.friended_friends, FriendSystem.put_self, Option.some.injEq] at hl
      subst hl
      exact hself
    · simp only [World.with_registry_friends, World.friended_friends, FriendSystem.put_ne _ hp] at hl
      exact hi.not_own i l hl
  | unregister_me p l hl =>
    refine ⟨hs.remove hop, fun i k hk => ?_⟩
    by_cases hp : i = p.id
    · subst hp; simp at hk
    · simp only [World.with_registry_friends, World.friended_friends, FriendSystem.put_ne _ hp] at hk
      exact hi.not_own i k hk
  | add_waiting | add_recorded | cleanup => exact ⟨hs.with_pending _, hi.not_own⟩
  | add_match p name q l l' hl hq hne hm hl' hr =>
    generalize (w.friends.pending_requests.process_add_friend_request p.id q.id w.env.now).2 = pending
    have hl2 : ((w.friends.with_pending pending).add_friend p l q.id).friendlist_of_id q.id = some l' :=
      (FriendSystem.put_ne _ hne _).trans hl'
    refine ⟨((hs.with_pending pending).add_friend hl _).add_friend hl2 _, fun i k hk => ?_⟩
    obtain ⟨k1, hk1, h1⟩ := list_add_friend hl2 hk
    obtain ⟨k0, hk0, h0⟩ := list_add_friend (f := w.friends.with_pending pending) hl hk1
    rw [h1, h0]
    rintro ((h | ⟨h, h'⟩) | ⟨h, h'⟩)
    · exact hi.not_own i k0 hk0 h
    · exact hne (h'.symm.trans h)
    · exact hne (h.symm.trans h')
  | remove_offline p name l id ha hl hid h0 hm hl' =>
    exact (Removal.offline (w := w.executed _) l hl h0 hm hl').friends_ok (hi.same rfl rfl)
  | remove_online p name l q l' ha hl hid h0 hm hne hon hl' =>
    exact (Removal.online (w := w.executed _) l q l' hl rfl h0 hm hne hon hl').friends_ok (hi.same rfl rfl)
  | register_me_fails | add_fail | remove_lookup_fails | remove_fail => exact ⟨hs, hi.not_own⟩

/-- A call that returns, with every statement carried out, keeps the invariant. -/
theorem FriendEffect.inv {w w' : World} {op : FriendOp} (h : FriendEffect w op none w') (hi : FriendInv w)
    (hop : op.Permitted w) : FriendInv w' := by
  have hok := h.friends_ok hi.friends_ok hop
  refine ⟨hok.same_players, ?_, h.first_smaller hi.first_smaller⟩
  generalize hres : (none : Option StdException) = res at h
  intro i k hk j
  cases h with
  | register_me p ha =>
    by_cases hp : i = p.id
    · subst hp
      simp only [World.with_registry_friends, World.friended_friends, FriendSystem.put_self, Option.some.injEq] at hk
      subst hk
      rfl
    · simp only [World.with_registry_friends, World.friended_friends, FriendSystem.put_ne _ hp] at hk
      exact hi.agree i k hk j
  | unregister_me p l hl =>
    by_cases hp : i = p.id
    · subst hp; simp at hk
    · simp only [World.with_registry_friends, World.friended_friends, FriendSystem.put_ne _ hp] at hk
      exact hi.agree i k hk j
  | add_match p name q l l' hl hq hne hm hl' hr =>
    generalize (w.friends.pending_requests.process_add_friend_request p.id q.id w.env.now).2 = pending at hk
    have hl2 : ((w.friends.with_pending pending).add_friend p l q.id).friendlist_of_id q.id = some l' :=
      (FriendSystem.put_ne _ hne _).trans hl'
    obtain ⟨k1, hk1, h1⟩ := list_add_friend hl2 hk
    obtain ⟨k0, hk0, h0⟩ := list_add_friend (f := w.friends.with_pending pending) hl hk1
    rw [World.committed_db _ _ _ _ _ hres.symm, h1, h0, hi.agree i k0 hk0, Database.mem_friends_make]
    tauto
  | remove_offline p name l id ha hl hid h0 hm hl' =>
    obtain ⟨k0, hk0, h0⟩ := list_drop_friend hl hk
    -- The other one has no list here.
    have hi' : i ≠ id := by rintro rfl; rw [hl'] at hk0; cases hk0
    rw [World.committed_db _ _ _ _ _ hres.symm, h0, hi.agree i k0 hk0, Database.mem_friends_remove hi.first_smaller]
    tauto
  | remove_online p name l q l' ha hl hid h0 hm hne hon hl' =>
    have hl2 : (w.friends.drop_friend p l q.id).friendlist_of_id q.id = some l' :=
      (FriendSystem.put_ne _ hne _).trans hl'
    obtain ⟨k1, hk1, h1⟩ := list_drop_friend hl2 hk
    obtain ⟨k0, hk0, h0⟩ := list_drop_friend hl hk1
    rw [World.committed_db _ _ _ _ _ hres.symm, h1, h0, hi.agree i k0 hk0,
      Database.mem_friends_remove hi.first_smaller]
    tauto
  | register_me_fails | remove_lookup_fails => cases hres
  | add_fail | add_waiting | add_recorded | remove_fail | cleanup => exact hi.agree i k hk j

/-- Without failing statements every call returns. -/
theorem FriendEffect.res_none {w w' : World} {op : FriendOp} {res : Option StdException}
    (h : FriendEffect w op res w') (henv : w.env.db_outcomes = []) : res = none := by
  have ha : w.db_answer = none := by simp [World.db_answer, henv]
  cases h with
  | register_me_fails p e he => rw [ha] at he; cases he
  | add_match => exact ha
  | remove_lookup_fails p name e he => rw [ha] at he; cases he
  | remove_offline | remove_online => simp [World.db_answer, World.executed, henv]
  | _ => rfl

/-! ## Runs -/

inductive FriendEvent where
  | call (op : FriendOp)
  /-- Characters and accounts come and go. -/
  | other_tables
  | reorder

/-- Any calls by any players, in a registry that holds exactly the registered
ones, while every statement succeeds. A lookup does what the database makes of
its text. -/
def readMachine (r : QueryReading) : Machine World FriendEvent where
  init w := w.friends = ⟨fun _ => none, .empty⟩ ∧ w.registry = ⟨fun _ => none, fun _ => none⟩
  step w ev w' := match ev with
    | .call op => ∃ env, env.db_outcomes = [] ∧ op.Permitted (w.begin env) ∧ op.run_by r (w.begin env) = .ok () w'
    | .other_tables => ∃ db, db.character_friends = w.db.character_friends ∧ w' = { w.begin w.env with db := db }
    | .reorder => w.Reorders w' ∧ w'.notices = [] ∧ w'.env = w.env

/-- The same from a table with the smaller id first, where a lookup is what it is
meant to be. -/
def friendMachine : Machine World FriendEvent where
  init w := w.friends = ⟨fun _ => none, .empty⟩ ∧ w.registry = ⟨fun _ => none, fun _ => none⟩ ∧ w.db.FirstSmaller
  step w ev w' := match ev with
    | .call op => ∃ env, env.db_outcomes = [] ∧ op.Permitted (w.begin env) ∧ op.run (w.begin env) = .ok () w'
    | .other_tables => ∃ db, db.character_friends = w.db.character_friends ∧ w' = { w.begin w.env with db := db }
    | .reorder => w.Reorders w' ∧ w'.notices = [] ∧ w'.env = w.env

/-- No name with a quote is looked up. -/
def FriendEvent.Plain : FriendEvent → Prop
  | .call op => op.Plain
  | .other_tables | .reorder => True

theorem plain_step (r : QueryReading) {w w' : World} {ev : FriendEvent} (h : ev.Plain) :
    (readMachine r).step w ev w' ↔ friendMachine.step w ev w' := by
  cases ev with
  | call op => simp only [readMachine, friendMachine, op.run_by_plain r h]
  | other_tables | reorder => rfl

theorem plain_run {r : QueryReading} {w0 w : World} {tr : List (Taken World FriendEvent)}
    (h : (readMachine r).Run w0 tr w) (hplain : ∀ x ∈ tr, x.event.Plain) : friendMachine.Run w0 tr w :=
  h.of_steps fun x hx hs => (plain_step r (hplain x hx)).1 hs

theorem World.Reorders.friends_of {w w' : World} (h : w.Reorders w') {i j : Nat} :
    j ∈ w'.db.get_friends_of i ↔ j ∈ w.db.get_friends_of i := by
  simp only [Database.mem_get_friends_of, h.character_friends.mem_iff]

theorem World.Reorders.list {w w' : World} (h : w.Reorders w') {i : Nat} {l' : FriendList}
    (hl : w'.friends.friendlist_of_id i = some l') :
    ∃ l, w.friends.friendlist_of_id i = some l ∧ l.backend = l'.backend ∧ l.friend_ids.Reorders l'.friend_ids := by
  have hrel := h.friendlists i
  rw [hl] at hrel
  generalize w.friends.friendlist_of_id i = x at hrel
  cases hrel with
  | some hx => exact ⟨_, rfl, hx⟩

theorem World.Reorders.list_isSome {w w' : World} (h : w.Reorders w') (i : Nat) :
    (w'.friends.friendlist_of_id i).isSome = (w.friends.friendlist_of_id i).isSome := by
  have hrel := h.friendlists i
  generalize w.friends.friendlist_of_id i = x at hrel
  generalize w'.friends.friendlist_of_id i = y at hrel
  cases hrel <;> rfl

theorem World.Reorders.same_players {w w' : World} (h : w.Reorders w') (hs : SamePlayers w.registry w.friends) :
    SamePlayers w'.registry w'.friends where
  by_id := h.registry ▸ hs.by_id
  by_name := h.registry ▸ hs.by_name
  list_online i l' hl' := by
    obtain ⟨l, hl, hb, _⟩ := h.list hl'
    rw [h.registry, ← hb]
    exact hs.list_online i l hl
  online_list i p hp := by
    rw [h.registry] at hp
    rw [h.list_isSome]
    exact hs.online_list i p hp

theorem World.Reorders.friends_ok {w w' : World} (hr : w.Reorders w') (h : FriendsOk w) : FriendsOk w' := by
  refine ⟨hr.same_players h.same_players, fun i l' hl' => ?_⟩
  obtain ⟨l, hl, _, hm⟩ := hr.list hl'
  rw [hm.mem]
  exact h.not_own i l hl

theorem World.Reorders.first_smaller {w w' : World} (hr : w.Reorders w') (h : w.db.FirstSmaller) : w'.db.FirstSmaller :=
  fun r hmem => h r (hr.character_friends.mem_iff.2 hmem)

theorem friend_inv_init {w : World} (h : friendMachine.init w) : FriendInv w := by
  obtain ⟨hf, hr, hn⟩ := h
  exact ⟨by constructor <;> simp [hf, hr], by simp [hf], hn⟩

theorem FriendInv.begin {w : World} (h : FriendInv w) (env : Env) : FriendInv (w.begin env) :=
  ⟨h.same_players, h.agree, h.first_smaller⟩

/-- A call in a run goes one of the ways a call that returns can go. -/
theorem friend_call_effect {w w' : World} {op : FriendOp} (hi : FriendInv w)
    (hs : friendMachine.step w (.call op) w') :
    ∃ env, op.Permitted (w.begin env) ∧ FriendEffect (w.begin env) op none w' := by
  obtain ⟨env, _, hop, hr⟩ := hs
  obtain ⟨res, w1, he, hrun⟩ := (hi.begin env).effect_of hop
  rw [hrun] at hr
  cases res with
  | some e => cases hr
  | none =>
    cases hr
    exact ⟨env, hop, he⟩

theorem friend_inv_step {w w' : World} {ev : FriendEvent} (hi : FriendInv w) (hs : friendMachine.step w ev w') :
    FriendInv w' := by
  cases ev with
  | call op =>
    obtain ⟨env, hop, he⟩ := friend_call_effect hi hs
    exact he.inv (hi.begin env) hop
  | other_tables =>
    obtain ⟨db, hdb, rfl⟩ := hs
    refine ⟨hi.same_players, fun i l hl j => ?_, fun r hr => hi.first_smaller r (hdb ▸ hr)⟩
    rw [hi.agree i l hl]
    simp only [Database.mem_get_friends_of, hdb]
  | reorder =>
    obtain ⟨h, _, _⟩ := hs
    refine ⟨h.same_players hi.same_players, fun i l' hl' j => ?_, h.first_smaller hi.first_smaller⟩
    obtain ⟨l, hl, _, hm⟩ := h.list hl'
    rw [hm.mem, h.friends_of]
    exact hi.agree i l hl j

theorem reachable_friend_inv {w : World} (h : friendMachine.Reachable w) : FriendInv w :=
  h.keeps (fun _ => friend_inv_init) fun _ _ _ => friend_inv_step

/-- A table without duplicates stays so. -/
theorem friends_nodup_step {w w' : World} {ev : FriendEvent} (hi : FriendInv w)
    (hn : w.db.character_friends.Nodup) (hs : friendMachine.step w ev w') : w'.db.character_friends.Nodup := by
  cases ev with
  | call op =>
    obtain ⟨env, hop, he⟩ := friend_call_effect hi hs
    generalize hres : (none : Option StdException) = res at he
    cases he with
    | add_match p name q l l' hl hq hne hm hl' hr =>
      rw [World.committed_db _ _ _ _ _ hres.symm]
      refine Database.nodup_make_friends hn fun hx => hm ?_
      rw [(hi.begin env).agree p.id l hl]
      exact Database.mem_get_friends_of_comm.1 hx
    | remove_offline | remove_online =>
      rw [World.committed_db _ _ _ _ _ hres.symm]
      exact Database.nodup_remove_friends hn _ _
    | _ => exact hn
  | other_tables =>
    obtain ⟨db, hdb, rfl⟩ := hs
    exact hdb ▸ hn
  | reorder => exact hs.1.character_friends.nodup_iff.1 hn

/-- In every database, after every run from a table with the smaller id first and
no row twice in which no friend is to be removed whose name has a quote: the list
of each online player is what the table says, two online players are on each
other's lists or neither is, nobody is on his own, the table is still so, and
every permitted call without such a name returns. -/
theorem friend_graph_consistent (r : QueryReading) {w0 w : World} {tr : List (Taken World FriendEvent)}
    (h0 : (readMachine r).init w0) (hfirst : w0.db.FirstSmaller) (hn : w0.db.character_friends.Nodup)
    (hrun : (readMachine r).Run w0 tr w) (hplain : ∀ x ∈ tr, x.event.Plain) :
    (∀ a la, w.friends.friendlist_of_id a = some la →
      (∀ b, b ∈ la.friend_ids ↔ b ∈ w.db.get_friends_of a) ∧ a ∉ la.friend_ids ∧
        ∀ b lb, w.friends.friendlist_of_id b = some lb → (b ∈ la.friend_ids ↔ a ∈ lb.friend_ids)) ∧
    (∀ p, w.online p ↔ ∃ l, w.friends.friendlist_of_id p.id = some l ∧ l.backend = p) ∧
    w.db.FirstSmaller ∧ w.db.character_friends.Nodup ∧
    ∀ (op : FriendOp) (env : Env), op.Plain → env.db_outcomes = [] → op.Permitted (w.begin env) →
      ∃ w', op.run_by r (w.begin env) = .ok () w' := by
  have h : friendMachine.Run w0 tr w := plain_run hrun hplain
  have h0 : friendMachine.init w0 := ⟨h0.1, h0.2, hfirst⟩
  have hi : FriendInv w := reachable_friend_inv ⟨w0, tr, h0, h⟩
  have hnodup : w.db.character_friends.Nodup := h.keeps_over (J := fun w => w.db.character_friends.Nodup)
    (fun _ => reachable_friend_inv) (fun _ _ _ => friends_nodup_step) (.init h0) hn
  refine ⟨fun a la ha => ⟨hi.agree a la ha, hi.friends_ok.not_own a la ha, fun b lb hb => hi.symmetric ha hb⟩,
    fun p => ⟨fun hp => hi.same_players.list_of_online hp, ?_⟩, hi.first_smaller, hnodup, fun op env hop' henv hop => ?_⟩
  · rintro ⟨l, hl, rfl⟩
    exact hi.same_players.list_online _ l hl
  · obtain ⟨res, w1, he, hrun⟩ := (hi.begin env).effect_of hop
    have hres : res = none := he.res_none henv
    rw [op.run_by_plain r hop']
    rw [hres] at hrun
    exact ⟨w1, hrun⟩

/-! Two players on a fresh server. -/

def bob : EntityPtr := ⟨2, 8, ascii "bob", 1⟩

def carol : EntityPtr := ⟨3, 9, ascii "carol", 2⟩

/-- The world after these calls, made at time 0 and without a failing statement. -/
def played (ops : List FriendOp) : World :=
  ops.foldl (fun w op => endState op.run (w.begin ⟨0, 0, 0, []⟩)) (World.fresh .empty)

/-- Both come, bob asks carol, carol asks bob. -/
def meeting : List FriendOp :=
  [.register_me bob, .register_me carol, .process_req_friend_add bob (ascii "carol"),
    .process_req_friend_add carol (ascii "bob")]

def played_step (n : Nat) (op : FriendOp) : Taken World FriendEvent :=
  ⟨played (meeting.take n), .call op, played (meeting.take (n + 1))⟩

def meeting_steps : List (Taken World FriendEvent) :=
  [played_step 0 (.register_me bob), played_step 1 (.register_me carol),
    played_step 2 (.process_req_friend_add bob (ascii "carol")),
    played_step 3 (.process_req_friend_add carol (ascii "bob"))]

/-- Each of the four calls is a step. -/
theorem meeting_run : friendMachine.Run (World.fresh .empty) meeting_steps (played meeting) := by
  have step (n : Nat) (op : FriendOp) (hop : op.Permitted ((played (meeting.take n)).begin ⟨0, 0, 0, []⟩))
      (h : op.run ((played (meeting.take n)).begin ⟨0, 0, 0, []⟩) = .ok () (played (meeting.take (n + 1)))) :
      friendMachine.step (played (meeting.take n)) (.call op) (played (meeting.take (n + 1))) :=
    ⟨⟨0, 0, 0, []⟩, rfl, hop, h⟩
  have h1 := step 0 (.register_me bob) ⟨rfl, rfl⟩ rfl
  have h2 := step 1 (.register_me carol) ⟨rfl, rfl⟩ rfl
  have h3 := step 2 (.process_req_friend_add bob (ascii "carol")) rfl rfl
  have h4 := step 3 (.process_req_friend_add carol (ascii "bob")) rfl rfl
  exact (((Machine.Run.nil.snoc h1).snoc h2).snoc h3).snoc h4

theorem fresh_init : friendMachine.init (World.fresh .empty) := ⟨rfl, rfl, fun _ h => absurd h List.not_mem_nil⟩

/-- No lookup, so this goes in every database. -/
theorem meeting_read (r : QueryReading) : (readMachine r).Run (World.fresh .empty) meeting_steps (played meeting) ∧
    ∀ x ∈ meeting_steps, x.event.Plain := by
  have hplain : ∀ x ∈ meeting_steps, x.event.Plain := by
    intro x hx
    simp only [meeting_steps, List.mem_cons, List.not_mem_nil, or_false] at hx
    rcases hx with rfl | rfl | rfl | rfl <;> trivial
  exact ⟨meeting_run.of_steps fun x hx hs => (plain_step r (hplain x hx)).2 hs, hplain⟩

/-! Carol, who is offline, is on bob's list. Bob wants to remove a friend with a
name that empties the table. -/

def befriended : World :=
  World.fresh { Database.empty with
    characters := [⟨8, 1, ascii "bob"⟩, ⟨9, 2, ascii "carol"⟩]
    character_friends := [⟨8, 9⟩] }

def bob_in : World := endState (FriendOp.register_me bob).run (befriended.begin ⟨0, 0, 0, []⟩)

def bob_comes : Taken World FriendEvent := ⟨befriended, .call (.register_me bob), bob_in⟩

def emptying : Bytes := ascii "'; DELETE FROM character_friends; COMMIT; --"

def befriending : Bytes := ascii "'; INSERT INTO character_friends VALUES (8, 9); COMMIT; --"

/-- The commands of such a text are carried out; the last one has no rows. -/
def injectable : QueryReading := .with_others fun text db =>
  if text = (Statement.char_name_to_uid emptying).text then (.ok 0, { db with character_friends := [] })
  else if text = (Statement.char_name_to_uid befriending).text then
    (.ok 0, { db with character_friends := db.character_friends ++ [⟨8, 9⟩] })
  else (.error .other, db)

theorem injectable_empties (db : Database) : injectable.lookup (Statement.char_name_to_uid emptying).text db =
    (.ok 0, { db with character_friends := [] }) :=
  (QueryReading.lookup_other (by decide +kernel) db).trans (if_pos rfl)

/-- Bob is told that the name is none of a friend's; the tables are now these. -/
def World.bob_refused (w : World) (name : Bytes) (db : Database) : World :=
  ({ (w.begin ⟨0, 0, 0, []⟩).executed (.char_name_to_uid name) with db := db }).friended w.friends
    [(bob, .friend_removal_fail name)]

theorem bob_refused_step {w : World} {l : FriendList} {name : Bytes} {db : Database} (hon : w.online bob)
    (hl : w.friends.friendlist_of_id bob.id = some l) (hb : l.backend = bob)
    (h : injectable.lookup (Statement.char_name_to_uid name).text w.db = (.ok 0, db)) :
    (readMachine injectable).step w (.call (.process_req_friend_remove bob name)) (w.bob_refused name db) :=
  ⟨⟨0, 0, 0, []⟩, rfl, hon, friend_system.remove_fail_run (w := w.begin ⟨0, 0, 0, []⟩) hl hb
    (friend_system.looked_up_ok rfl h) (.inl rfl)⟩

def bob_robbed : World := bob_in.bob_refused emptying { befriended.db with character_friends := [] }

theorem meeting_consistent :
    ∃ la, (played meeting).friends.friendlist_of_id 8 = some la ∧ 9 ∈ la.friend_ids ∧
      ∀ b, b ∈ la.friend_ids ↔ b ∈ (played meeting).db.get_friends_of 8 := by
  have h := friend_graph_consistent injectable ⟨rfl, rfl⟩ fresh_init.2.2 List.nodup_nil (meeting_read injectable).1
    (meeting_read injectable).2
  exact ⟨_, rfl, by decide, (h.1 8 _ rfl).1⟩

/-- The table is empty, and carol is still on bob's list. -/
theorem table_emptied_by_name : ∃ tr l, (readMachine injectable).init befriended ∧ befriended.db.FirstSmaller ∧
    befriended.db.character_friends.Nodup ∧ (readMachine injectable).Run befriended tr bob_robbed ∧
    bob_robbed.friends.friendlist_of_id 8 = some l ∧ 9 ∈ l.friend_ids ∧ 9 ∉ bob_robbed.db.get_friends_of 8 := by
  have h1 : (readMachine injectable).step befriended (.call (.register_me bob)) bob_in :=
    ⟨⟨0, 0, 0, []⟩, rfl, ⟨rfl, rfl⟩, rfl⟩
  have h2 : (readMachine injectable).step bob_in (.call (.process_req_friend_remove bob emptying)) bob_robbed :=
    bob_refused_step rfl rfl rfl (injectable_empties _)
  exact ⟨_, ⟨bob, ⟨[9], by decide⟩⟩, ⟨rfl, rfl⟩, by unfold Database.FirstSmaller; decide, by decide,
    (Machine.Run.nil.snoc h1).snoc h2, rfl, by decide, by decide⟩

end tejk_it_izi
