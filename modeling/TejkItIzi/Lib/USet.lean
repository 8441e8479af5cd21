import Mathlib.Data.Finset.Card
import Mathlib.Data.List.Dedup
/-!
# Sets that are iterated

A hash set visits its elements in some order, each once. `USet` is a list
without duplicates: the list is the order of iteration. Results about a `USet`
are stated through membership, so they hold for every order.
-/

namespace ProgLib

/-- When only one element contributes, its contribution is the whole. -/
theorem flatMap_eq_of_single {α β : Type} {l : List α} (hl : l.Nodup) {f : α → List β} {a : α} (ha : a ∈ l)
    (h : ∀ b ∈ l, b ≠ a → f b = []) : l.flatMap f = f a := by
  obtain ⟨l1, l2, rfl⟩ := List.append_of_mem ha
  rw [List.nodup_middle, List.nodup_cons, List.mem_append, not_or] at hl
  have h1 : l1.flatMap f = [] := List.flatMap_eq_nil_iff.2 fun b hb =>
    h b (by simp [hb]) (by rintro rfl; exact hl.1.1 hb)
  have h2 : l2.flatMap f = [] := List.flatMap_eq_nil_iff.2 fun b hb =>
    h b (by simp [hb]) (by rintro rfl; exact hl.1.2 hb)
  simp [h1, h2]

/-- Elements in iteration order, each once. -/
structure USet (α : Type) where
  elems : List α
  nodup : elems.Nodup

namespace USet

variable {α : Type}

instance : Membership α (USet α) := ⟨fun s a => a ∈ s.elems⟩

instance [DecidableEq α] (a : α) (s : USet α) : Decidable (a ∈ s) := inferInstanceAs (Decidable (a ∈ s.elems))

theorem mem_elems {a : α} {s : USet α} : a ∈ s.elems ↔ a ∈ s := Iff.rfl

def empty : USet α := ⟨[], List.nodup_nil⟩

def size (s : USet α) : Nat := s.elems.length

def toFinset (s : USet α) : Finset α := ⟨s.elems, s.nodup⟩

/-- The same elements in a possibly different order. -/
def Reorders (s t : USet α) : Prop := s.elems.Perm t.elems

@[simp] theorem not_mem_empty (a : α) : ¬ a ∈ (empty : USet α) := List.not_mem_nil

@[simp] theorem mem_toFinset {s : USet α} {a : α} : a ∈ s.toFinset ↔ a ∈ s := Iff.rfl

theorem card_toFinset (s : USet α) : s.toFinset.card = s.size := rfl

theorem size_eq_zero {s : USet α} : s.size = 0 ↔ ∀ a, ¬ a ∈ s := by
  rw [size, List.length_eq_zero_iff, List.eq_nil_iff_forall_not_mem]
  rfl

theorem Reorders.mem {s t : USet α} (h : s.Reorders t) {a : α} : a ∈ t ↔ a ∈ s := (List.Perm.mem_iff h).symm

theorem Reorders.toFinset {s t : USet α} (h : s.Reorders t) : t.toFinset = s.toFinset := by
  ext a; simp [h.mem]

variable [DecidableEq α]

/-- `emplace`, `insert`: no effect on a present element. -/
def insert (s : USet α) (a : α) : USet α := ⟨s.elems.insert a, s.nodup.insert⟩

def erase (s : USet α) (a : α) : USet α := ⟨s.elems.erase a, s.nodup.erase a⟩

def ofList (l : List α) : USet α := ⟨l.dedup, l.nodup_dedup⟩

@[simp] theorem mem_insert {s : USet α} {a b : α} : b ∈ s.insert a ↔ b = a ∨ b ∈ s := List.mem_insert_iff

@[simp] theorem mem_erase {s : USet α} {a b : α} : b ∈ s.erase a ↔ b ≠ a ∧ b ∈ s := s.nodup.mem_erase_iff

@[simp] theorem mem_ofList {l : List α} {a : α} : a ∈ ofList l ↔ a ∈ l := List.mem_dedup

end USet

end ProgLib
