import Mathlib.Data.Finset.Card
import TejkItIzi.Lib.Runs
/-!
# Who hears what in a set of groups

Members of type `P` join and leave groups named by `R` and speak in them. What
happens in a group is `news`; the rule of delivery is that the news of an act
goes to those who are members once the act is done (`told`). So a member is told
of his own arrival first (`entered`), of everything while he stays, and not of
his own departure.
-/

namespace ProgLib.Groups

variable {P R M : Type}

inductive Act (P R M : Type) where
  | join (p : P) (r : R)
  | leave (p : P) (r : R)
  | quit (p : P)
  | say (p : P) (r : R) (m : M)
  | tick
  | idle

/-- What happens in one group. -/
inductive News (P M : Type) where
  | joined (p : P)
  | left (p : P)
  | said (p : P) (m : M)
  | counted (n : Nat)

/-- The act, if it is one. -/
def Act.made : Act P R M → List (Act P R M)
  | .idle => []
  | a => [a]

theorem Act.made_nil {a : Act P R M} : a.made = [] ↔ a = .idle := by cases a <;> simp [made]

theorem Act.made_of_ne {a : Act P R M} (h : a ≠ .idle) : a.made = [a] := by
  cases a <;> first | rfl | exact absurd rfl h

variable [DecidableEq P] [DecidableEq R]

/-- The members of every group after an act. -/
def next (g : R → Finset P) : Act P R M → R → Finset P
  | .join p r, x => if x = r then insert p (g x) else g x
  | .leave p r, x => if x = r then (g x).erase p else g x
  | .quit p, x => (g x).erase p
  | .say _ _ _, x => g x
  | .tick, x => g x
  | .idle, x => g x

/-- The news an act makes in group `x`. Acts out of place make none. -/
def news (g : R → Finset P) : Act P R M → R → List (News P M)
  | .join p r, x => if x = r ∧ p ∉ g x then [.joined p] else []
  | .leave p r, x => if x = r ∧ p ∈ g x then [.left p] else []
  | .quit p, x => if p ∈ g x then [.left p] else []
  | .say p r m, x => if x = r ∧ p ∈ g x then [.said p m] else []
  | .tick, x => if g x = ∅ then [] else [.counted (g x).card]
  | .idle, _ => []

/-- What `p` is told about group `x`. -/
def told (g : R → Finset P) (a : Act P R M) (p : P) (x : R) : List (News P M) :=
  if p ∈ next g a x then news g a x else []

theorem told_of_mem {g : R → Finset P} {a : Act P R M} {p : P} {x : R} (h : p ∈ next g a x) :
    told g a p x = news g a x := if_pos h

theorem told_of_not_mem {g : R → Finset P} {a : Act P R M} {p : P} {x : R} (h : p ∉ next g a x) :
    told g a p x = [] := if_neg h

theorem told_of_no_news {g : R → Finset P} {a : Act P R M} {p : P} {x : R} (h : news g a x = []) :
    told g a p x = [] := by
  unfold told
  split
  · exact h
  · rfl

/-- One piece of news, in whatever form it is delivered. -/
theorem map_told_of_news {N : Type} (f : News P M → N) {g : R → Finset P} {a : Act P R M} {p : P} {x : R}
    {n : News P M} (h : news g a x = [n]) : (told g a p x).map f = if p ∈ next g a x then [f n] else [] := by
  unfold told
  split
  · rw [h]; rfl
  · rfl

/-- What arrives at an address, where members are reached at addresses. -/
def told_at {A : Type} [DecidableEq A] (address : P → A) (g : R → Finset P) (a : Act P R M) (k : A) (x : R) :
    List (News P M) :=
  if ∃ p ∈ next g a x, address p = k then news g a x else []

section address

variable {A : Type} [DecidableEq A] {address : P → A} {g : R → Finset P} {a : Act P R M} {p : P} {k : A} {x : R}

theorem told_at_of_mem (h : p ∈ next g a x) : told_at address g a (address p) x = told g a p x :=
  (if_pos ⟨p, h, rfl⟩).trans (told_of_mem h).symm

theorem told_at_nobody (h : ∀ p ∈ next g a x, address p ≠ k) : told_at address g a k x = [] :=
  if_neg fun ⟨p, hp, hk⟩ => h p hp hk

theorem told_at_idle : told_at address g (.idle : Act P R M) k x = [] := ite_self _

end address

/-! ## Acts out of place -/

theorem news_idle {g : R → Finset P} {x : R} : news g (.idle : Act P R M) x = [] := rfl

/-- Entering a group one is in changes nothing and is no news. -/
theorem join_again {g : R → Finset P} {p : P} {r : R} (h : p ∈ g r) :
    next g (.join p r : Act P R M) = g ∧ ∀ x, news g (.join p r : Act P R M) x = [] := by
  constructor
  · funext x
    by_cases hx : x = r
    · subst hx; simp [next, h]
    · simp [next, hx]
  · rintro x
    refine if_neg ?_
    rintro ⟨rfl, hn⟩
    exact hn h

/-- So is leaving a group one is not in. -/
theorem leave_absent {g : R → Finset P} {p : P} {r : R} (h : p ∉ g r) :
    next g (.leave p r : Act P R M) = g ∧ ∀ x, news g (.leave p r : Act P R M) x = [] := by
  constructor
  · funext x
    by_cases hx : x = r
    · subst hx; simp [next, h]
    · simp [next, hx]
  · rintro x
    refine if_neg ?_
    rintro ⟨rfl, hp⟩
    exact h hp

/-- Nobody hears who speaks in a group he is not in. -/
theorem say_absent {g : R → Finset P} {p : P} {r : R} {m : M} (h : p ∉ g r) (x : R) :
    news g (.say p r m) x = [] := by
  refine if_neg ?_
  rintro ⟨rfl, hp⟩
  exact h hp

/-! ## Coming and staying -/

/-- Whoever enters a group did so by joining it, and is told so himself. -/
theorem entered {g : R → Finset P} {a : Act P R M} {p : P} {x : R} (h0 : p ∉ g x) (h1 : p ∈ next g a x) :
    a = .join p x ∧ told g a p x = [.joined p] := by
  have ha : a = .join p x := by
    cases a with
    | join q r =>
      simp only [next] at h1
      split at h1
      · rename_i hx
        rcases Finset.mem_insert.1 h1 with rfl | h1
        · rw [hx]
        · exact absurd h1 h0
      · exact absurd h1 h0
    | leave q r =>
      simp only [next] at h1
      split at h1
      · exact absurd (Finset.mem_erase.1 h1).2 h0
      · exact absurd h1 h0
    | quit q => exact absurd (Finset.mem_erase.1 h1).2 h0
    | say q r m => exact absurd h1 h0
    | tick => exact absurd h1 h0
    | idle => exact absurd h1 h0
  subst ha
  exact ⟨rfl, by simp [told, next, news, h0]⟩

/-! ## As a machine -/

/-- Groups that start empty, under any acts. -/
def machine : Machine (R → Finset P) (Act P R M) where
  init g := g = fun _ => ∅
  step g a g' := g' = next g a

end ProgLib.Groups
