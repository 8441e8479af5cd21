import Mathlib.Data.List.Induction
import Mathlib.Data.Set.Insert
import Mathlib.Tactic.Common
/-!
# A set under updates

Inserting and erasing elements one after another. Whether an element is in the
set afterwards is decided by the last update about it; without one, by the set
it began with.
-/

namespace ProgLib

inductive SetUpdate (α : Type) where
  | insert (a : α)
  | erase (a : α)

namespace SetUpdate

variable {α : Type}

/-- The element the update is about. -/
def about : SetUpdate α → α
  | .insert a | .erase a => a

def apply (S : Set α) : SetUpdate α → Set α
  | .insert a => Insert.insert a S
  | .erase a => S \ {a}

def applyAll (S : Set α) (us : List (SetUpdate α)) : Set α := us.foldl apply S

/-- The last update about `a` inserts it. -/
def LastInserts (us : List (SetUpdate α)) (a : α) : Prop := ∃ l r, us = l ++ .insert a :: r ∧ ∀ u ∈ r, u.about ≠ a

variable {us : List (SetUpdate α)} {u : SetUpdate α} {a : α} {S : Set α}

theorem applyAll_snoc (S : Set α) (us : List (SetUpdate α)) (u : SetUpdate α) :
    applyAll S (us ++ [u]) = apply (applyAll S us) u := List.foldl_append ..

theorem mem_apply_of_ne (h : u.about ≠ a) : a ∈ apply S u ↔ a ∈ S := by
  cases u with
  | insert b => exact ⟨fun hm => hm.resolve_left (Ne.symm h), fun hm => .inr hm⟩
  | erase b => exact ⟨fun hm => hm.1, fun hm => ⟨hm, Ne.symm h⟩⟩

theorem not_lastInserts_erase : ¬ LastInserts (us ++ [.erase a]) a := by
  rintro ⟨l, r, heq, hr⟩
  rcases List.eq_nil_or_concat r with rfl | ⟨r, u, rfl⟩
  · have hlast := (List.append_inj' heq rfl).2
    simp at hlast
  · rw [List.concat_eq_append, ← List.cons_append, ← List.append_assoc] at heq
    obtain rfl := List.singleton_inj.1 (List.append_inj' heq rfl).2
    exact hr (.erase a) (by simp) rfl

theorem lastInserts_snoc_of_ne (h : u.about ≠ a) : LastInserts (us ++ [u]) a ↔ LastInserts us a := by
  constructor
  · rintro ⟨l, r, heq, hr⟩
    rcases List.eq_nil_or_concat r with rfl | ⟨r, v, rfl⟩
    · obtain rfl := List.singleton_inj.1 (List.append_inj' heq rfl).2
      exact absurd rfl h
    · rw [List.concat_eq_append, ← List.cons_append, ← List.append_assoc] at heq
      refine ⟨l, r, (List.append_inj' heq rfl).1, fun v hv => hr v ?_⟩
      rw [List.concat_eq_append]
      exact List.mem_append_left _ hv
  · rintro ⟨l, r, rfl, hr⟩
    refine ⟨l, r ++ [u], by simp, fun v hv => ?_⟩
    rcases List.mem_append.1 hv with hv | hv
    · exact hr v hv
    · rw [List.mem_singleton.1 hv]
      exact h

/-- The last update about an element decides. -/
theorem mem_applyAll : a ∈ applyAll S us ↔ LastInserts us a ∨ (∀ u ∈ us, u.about ≠ a) ∧ a ∈ S := by
  induction us using List.reverseRecOn with
  | nil => simp [applyAll, LastInserts]
  | append_singleton us u ih =>
    rw [applyAll_snoc]
    by_cases hu : u.about = a
    · have habout : ¬ ∀ v ∈ us ++ [u], v.about ≠ a := fun h => h u (by simp) hu
      cases u with
      | insert b =>
        obtain rfl : b = a := hu
        exact iff_of_true (.inl rfl) (.inl ⟨us, [], rfl, by simp⟩)
      | erase b =>
        obtain rfl : b = a := hu
        refine iff_of_false (fun h => h.2 rfl) ?_
        rintro (hl | hn)
        · exact not_lastInserts_erase hl
        · exact habout hn.1
    · rw [mem_apply_of_ne hu, ih, lastInserts_snoc_of_ne hu, List.forall_mem_append, List.forall_mem_singleton,
        and_iff_left hu]

end SetUpdate

end ProgLib
