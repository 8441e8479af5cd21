import TejkItIzi.Lib.Runs
import TejkItIzi.Lib.SetUpdates
import TejkItIzi.World
import Mathlib.Data.Sym.Sym2
/-!
# The table of friends as a set of pairs

`character_friends` may hold a row any number of times, in any order. What the
server reads from it is a set of unordered pairs, which `make_friends` inserts
into and `remove_friends` erases from.
-/

namespace tejk_it_izi

open ProgLib

/-- The pairs that are stored. -/
def Database.friendships (db : Database) : Set (Sym2 Nat) :=
  {pair | ∃ r ∈ db.character_friends, pair = s(r.character_id, r.his_friend_id)}

/-- A call that changes the table. -/
inductive FriendsCall where
  | make_friends (one other : Nat)
  | remove_friends (one other : Nat)

def FriendsCall.run : FriendsCall → WorldM Unit
  | .make_friends one other => psql_facade.make_friends one other
  | .remove_friends one other => psql_facade.remove_friends one other

def FriendsCall.pair : FriendsCall → Sym2 Nat
  | .make_friends one other | .remove_friends one other => s(one, other)

/-- What the call is for. -/
def FriendsCall.update : FriendsCall → SetUpdate (Sym2 Nat)
  | .make_friends one other => .insert s(one, other)
  | .remove_friends one other => .erase s(one, other)

/-- Calls that return, one after another, about distinct ids; the database may
return its rows in another order each time. -/
def friendsMachine : Machine World FriendsCall where
  init w := w.db.FirstSmaller
  step w c w' := ¬ c.pair.IsDiag ∧
    ∃ rows env, w.db.character_friends.Perm rows ∧
      c.run ({ w with db := { w.db with character_friends := rows } }.begin env) = .ok () w'

section pairs

variable {db db' : Database} {a b : Nat}

theorem mem_friendships : s(a, b) ∈ db.friendships ↔ b ∈ db.get_friends_of a := by
  rw [Database.mem_get_friends_of]
  constructor
  · rintro ⟨⟨x, y⟩, hr, heq⟩
    rcases Sym2.eq_iff.1 heq with ⟨rfl, rfl⟩ | ⟨rfl, rfl⟩
    · exact .inl hr
    · exact .inr hr
  · rintro (hr | hr)
    · exact ⟨_, hr, rfl⟩
    · exact ⟨_, hr, Sym2.eq_swap⟩

theorem friendships_make : (db.make_friends a b).friendships = insert s(a, b) db.friendships := by
  ext pair
  induction pair using Sym2.ind with
  | _ x y =>
    rw [Set.mem_insert_iff, mem_friendships, mem_friendships, Database.mem_friends_make, Sym2.eq_iff]
    exact or_comm

theorem friendships_remove (h : db.FirstSmaller) : (db.remove_friends a b).friendships = db.friendships \ {s(a, b)} := by
  ext pair
  induction pair using Sym2.ind with
  | _ x y =>
    rw [Set.mem_sdiff, Set.mem_singleton_iff, mem_friendships, mem_friendships, Database.mem_friends_remove h, Sym2.eq_iff]

theorem friendships_perm (h : db.character_friends.Perm db'.character_friends) : db'.friendships = db.friendships := by
  ext pair
  exact exists_congr fun r => and_congr_left fun _ => h.mem_iff.symm

end pairs

section calls

variable {w w' : World} {c : FriendsCall}

/-- A statement that is executed, and what follows it. -/
theorem exec_bind_ok {α : Type} {st : Statement} {f : Unit → WorldM α} {x : α} :
    (psql_facade.exec st >>= f) w = .ok x w' ↔ w.db_answer = none ∧ f () (w.executed st) = .ok x w' := by
  cases ha : w.db_answer with
  | none =>
    rw [bind_ok (psql_facade.exec_ok ha st)]
    simp
  | some e =>
    rw [bind_error (psql_facade.exec_fails ha st)]
    simp

theorem make_friends_db {one other : Nat} (h : psql_facade.make_friends one other w = .ok () w') :
    w'.db = w.db.make_friends one other := by
  obtain ⟨_, hrun⟩ := exec_bind_ok.1 h
  cases hrun
  rfl

theorem remove_friends_db {one other : Nat} (h : psql_facade.remove_friends one other w = .ok () w') :
    w'.db = w.db.remove_friends one other := by
  obtain ⟨_, hrun⟩ := exec_bind_ok.1 h
  cases hrun
  rfl

theorem get_friends_of_ok {a : Nat} {friends : USet Nat} (h : psql_facade.get_friends_of a w = .ok friends w') :
    friends = w.db.get_friends_of a := by
  obtain ⟨_, hrun⟩ := exec_bind_ok.1 h
  cases hrun
  rfl

/-- A call does to the pairs what it is for. -/
theorem friends_step (hfirst : w.db.FirstSmaller) (h : friendsMachine.step w c w') :
    w'.db.FirstSmaller ∧ w'.db.friendships = c.update.apply w.db.friendships := by
  obtain ⟨hdiag, rows, env, hperm, hrun⟩ := h
  set w1 : World := { w with db := { w.db with character_friends := rows } }.begin env with hw1
  have hfirst1 : w1.db.FirstSmaller := fun r hr => hfirst r (hperm.mem_iff.2 hr)
  have hsame : w1.db.friendships = w.db.friendships := friendships_perm hperm
  cases c with
  | make_friends one other =>
    have hne : one ≠ other := fun heq => hdiag (Sym2.mk_isDiag_iff.2 heq)
    rw [make_friends_db hrun]
    exact ⟨hfirst1.make_friends hne, by rw [friendships_make, hsame]; rfl⟩
  | remove_friends one other =>
    rw [remove_friends_db hrun]
    exact ⟨hfirst1.remove_friends one other, by rw [friendships_remove hfirst1, hsame]; rfl⟩

/-- The table is the set it began as, updated by the calls. -/
theorem friends_run {w0 : World} {tr : List (Taken World FriendsCall)} (h0 : w0.db.FirstSmaller)
    (h : friendsMachine.Run w0 tr w) :
    w.db.FirstSmaller ∧ w.db.friendships = SetUpdate.applyAll w0.db.friendships (tr.map fun x => x.event.update) := by
  induction h with
  | nil => exact ⟨h0, rfl⟩
  | @snoc tr w c w' _ hs ih =>
    obtain ⟨hfirst, heq⟩ := friends_step ih.1 hs
    refine ⟨hfirst, ?_⟩
    rw [List.map_append, List.map_singleton, SetUpdate.applyAll_snoc, ← ih.2]
    exact heq

/-- The calls of a run, in order. -/
def friend_calls (tr : List (Taken World FriendsCall)) : List FriendsCall := tr.map (·.event)

/-- The last call about the two made them friends. -/
def LastMakes (calls : List FriendsCall) (a b : Nat) : Prop :=
  ∃ l one other r, calls = l ++ .make_friends one other :: r ∧ s(one, other) = s(a, b) ∧ ∀ c ∈ r, c.pair ≠ s(a, b)

theorem about_update (c : FriendsCall) : c.update.about = c.pair := by
  cases c <;> rfl

theorem lastMakes_iff {calls : List FriendsCall} {a b : Nat} :
    LastMakes calls a b ↔ SetUpdate.LastInserts (calls.map FriendsCall.update) s(a, b) := by
  constructor
  · rintro ⟨l, one, other, r, rfl, hpair, hr⟩
    refine ⟨l.map FriendsCall.update, r.map FriendsCall.update, by simp [FriendsCall.update, hpair], fun u hu => ?_⟩
    obtain ⟨c, hc, rfl⟩ := List.mem_map.1 hu
    rw [about_update]
    exact hr c hc
  · rintro ⟨l', r', heq, hr⟩
    obtain ⟨l, m, rfl, rfl, hm⟩ := List.map_eq_append_iff.1 heq
    obtain ⟨c, r, rfl, hc, rfl⟩ := List.map_eq_cons_iff.1 hm
    cases c with
    | make_friends one other =>
      refine ⟨l, one, other, r, rfl, SetUpdate.insert.inj hc, fun c hmem => ?_⟩
      rw [← about_update]
      exact hr _ (List.mem_map_of_mem hmem)
    | remove_friends one other => cases hc

end calls

/-- Two are friends if the last call about them made them so, or if there was
none and they were. Who is asked makes no difference, and one `remove_friends`
ends it. -/
theorem friends_as_last_call {w0 w : World} {tr : List (Taken World FriendsCall)} (h0 : w0.db.FirstSmaller)
    (h : friendsMachine.Run w0 tr w) (a b : Nat) {friends : USet Nat} {w' : World}
    (hfriends : psql_facade.get_friends_of a w = .ok friends w') :
    (b ∈ friends ↔ LastMakes (friend_calls tr) a b ∨
      (∀ c ∈ friend_calls tr, c.pair ≠ s(a, b)) ∧
        (⟨a, b⟩ ∈ w0.db.character_friends ∨ ⟨b, a⟩ ∈ w0.db.character_friends)) ∧
    (∀ friends' w'', psql_facade.get_friends_of b w = .ok friends' w'' → (b ∈ friends ↔ a ∈ friends')) ∧
    ∀ w1, friendsMachine.step w (.remove_friends a b) w1 → ∀ friends' w'',
      psql_facade.get_friends_of a w1 = .ok friends' w'' → ¬ b ∈ friends' := by
  rw [get_friends_of_ok hfriends]
  refine ⟨?_, ?_, ?_⟩
  · have hcalls : (tr.map fun x => x.event.update) = (friend_calls tr).map FriendsCall.update := by
      rw [friend_calls, List.map_map]
      rfl
    rw [← mem_friendships, (friends_run h0 h).2, SetUpdate.mem_applyAll, hcalls, ← lastMakes_iff, mem_friendships,
      Database.mem_get_friends_of]
    simp only [List.forall_mem_map, about_update]
  · intro friends' w'' hfriends'
    rw [get_friends_of_ok hfriends']
    exact Database.mem_get_friends_of_comm
  · intro w1 hs friends' w'' hfriends'
    rw [get_friends_of_ok hfriends', ← mem_friendships, (friends_step (friends_run h0 h).1 hs).2]
    exact fun hmem => hmem.2 rfl

/-- 3 and 7 are friends, stored twice. -/
def two_rows : World := .fresh { Database.empty with character_friends := [⟨3, 7⟩, ⟨3, 7⟩] }

/-- 9 and 3 have become friends, too. -/
def three_rows : World := endState (FriendsCall.make_friends 9 3).run (two_rows.begin ⟨0, 0, 0, []⟩)

theorem friends_as_last_call_of_three :
    ∃ friends w', psql_facade.get_friends_of 3 three_rows = .ok friends w' ∧ 7 ∈ friends ∧ 9 ∈ friends := by
  have hfirst : two_rows.db.FirstSmaller := by
    unfold Database.FirstSmaller
    decide
  have hstep : friendsMachine.step two_rows (.make_friends 9 3) three_rows :=
    ⟨by simp [FriendsCall.pair], _, ⟨0, 0, 0, []⟩, .refl _, rfl⟩
  have hrun := Machine.Run.nil.snoc hstep
  refine ⟨_, _, rfl, (friends_as_last_call hfirst hrun 3 7 rfl).1.2 (.inr ⟨?_, by decide⟩),
    (friends_as_last_call hfirst hrun 3 9 rfl).1.2 (.inl ⟨[], 9, 3, [], rfl, Sym2.eq_swap, by simp⟩)⟩
  simp [friend_calls, FriendsCall.pair]

end tejk_it_izi
