import Mathlib.Data.List.Induction
import Mathlib.Tactic.Common
/-!
# Changing phase by request

A client and a server go through phases, over a queue in each direction. A
message has no mark of the phase it was sent in; the server reads it in its own
phase. Some messages ask for another phase; the server answers one by telling
the client its new phase, at once or after a while (`switching`), or closes.

If the client waits after asking until it has been told, both agree on every
message: `Sync` holds of what is in the queues all along, and `Sync.in_phase`
is what it is for.

The other way a message has no mark either, but the phases it takes are in the
messages themselves; `Reads` is about one queue.
-/

namespace ProgLib.Handshake

variable {Ph M : Type}

/-- What the server has told the client: the phase it reads in, unless it is
about to change it and has not said so, or has closed. -/
inductive Stage (Ph : Type) where
  | closed
  | serving (ph : Ph)
  | switching

/-- What the server does of its own accord, and the phases it tells. -/
inductive Turn : Stage Ph → Stage Ph → List Ph → Prop
  | closes (st ws) : Turn st .closed ws
  | stays (st) : Turn st st []
  | tells (ph) : Turn .switching (.serving ph) [ph]

/-- What it does with a message; `asks` says whether that asks for a phase. -/
inductive Answer (asks : Bool) : Stage Ph → Stage Ph → List Ph → Prop
  | closes (st ws) : Answer asks st .closed ws
  | stays (ph) : asks = false → Answer asks (.serving ph) (.serving ph) []
  | changes (ph ph') : asks = true → Answer asks (.serving ph) (.serving ph') [ph']
  | postpones (ph) : asks = true → Answer asks (.serving ph) .switching []

variable (phase : M → Ph) (asks : M → Bool)

/-- The client is in phase `ph`; `up` holds the messages to the server, `told`
the phases on their way to the client. -/
inductive Sync (ph : Ph) : Bool → List M → List Ph → Stage Ph → Prop
  | closed (awaiting up told) : Sync ph awaiting up told .closed
  | quiet (up) : (∀ m ∈ up, phase m = ph ∧ asks m = false) → Sync ph false up [] (.serving ph)
  | asked (up m) : (∀ m' ∈ up, phase m' = ph ∧ asks m' = false) → phase m = ph → asks m = true →
    Sync ph true (up ++ [m]) [] (.serving ph)
  | told (ph') : Sync ph true [] [ph'] (.serving ph')
  | switching : Sync ph true [] [] .switching

variable {phase asks} {ph : Ph} {awaiting : Bool} {up : List M} {told ws : List Ph} {st st' : Stage Ph} {m : M}

/-- The client sends a message while it does not wait. -/
theorem Sync.send (h : Sync phase asks ph false up told st) (hm : phase m = ph) :
    Sync phase asks ph (asks m) (up ++ [m]) told st := by
  cases h with
  | closed => exact .closed _ _ _
  | quiet _ hup =>
    cases ha : asks m with
    | true => exact .asked up m hup hm ha
    | false =>
      refine .quiet _ fun m' hm' => ?_
      rcases List.mem_append.1 hm' with hm' | hm'
      · exact hup m' hm'
      · rw [List.mem_singleton.1 hm']
        exact ⟨hm, ha⟩

/-- The client is told a phase, and takes it. -/
theorem Sync.receive {ph' : Ph} (h : Sync phase asks ph awaiting up (ph' :: told) st) :
    Sync phase asks ph' false up told st := by
  cases h with
  | closed => exact .closed _ _ _
  | told => exact .quiet [] (by simp)

theorem Sync.turn (h : Sync phase asks ph awaiting up told st) (ht : Turn st st' ws) :
    Sync phase asks ph awaiting up (told ++ ws) st' := by
  cases ht with
  | closes => exact .closed _ _ _
  | stays => simpa using h
  | tells ph' =>
    cases h with
    | switching => exact .told ph'

/-- The server takes the next message. -/
theorem Sync.deliver (h : Sync phase asks ph awaiting (m :: up) told st) (ha : Answer (asks m) st st' ws) :
    Sync phase asks ph awaiting up (told ++ ws) st' := by
  generalize hl : m :: up = l at h
  cases h with
  | closed =>
    cases ha with
    | closes => exact .closed _ _ _
  | quiet _ hup =>
    subst hl
    have hm := (hup m List.mem_cons_self).2
    cases ha with
    | closes => exact .closed _ _ _
    | stays => exact .quiet up fun m' hm' => hup m' (List.mem_cons_of_mem _ hm')
    | changes _ _ h | postpones _ h => rw [hm] at h; cases h
  | asked l' m' hl' hph hasks =>
    cases l' with
    | nil =>
      obtain ⟨rfl, rfl⟩ := List.cons.inj hl
      cases ha with
      | closes => exact .closed _ _ _
      | stays _ h => rw [hasks] at h; cases h
      | changes _ ph' => exact .told ph'
      | postpones => exact .switching
    | cons m1 l' =>
      obtain ⟨rfl, rfl⟩ := List.cons.inj hl
      have hm := (hl' m List.mem_cons_self).2
      cases ha with
      | closes => exact .closed _ _ _
      | stays => exact .asked l' m' (fun x hx => hl' x (List.mem_cons_of_mem _ hx)) hph hasks
      | changes _ _ h | postpones _ h => rw [hm] at h; cases h
  | told | switching => cases hl

/-- The server reads the next message in the phase it was sent in. -/
theorem Sync.in_phase (h : Sync phase asks ph awaiting (m :: up) told st) (hst : st ≠ .closed) :
    st = .serving (phase m) := by
  generalize hl : m :: up = l at h
  cases h with
  | closed => exact absurd rfl hst
  | quiet _ hup =>
    subst hl
    rw [(hup m List.mem_cons_self).1]
  | asked l' m' hl' hph hasks =>
    cases l' with
    | nil =>
      obtain ⟨rfl, rfl⟩ := List.cons.inj hl
      rw [hph]
    | cons m1 l' =>
      obtain ⟨rfl, rfl⟩ := List.cons.inj hl
      rw [(hl' m List.mem_cons_self).1]
  | told | switching => cases hl

/-! ## Reading -/

section reading

variable (table : M → Ph) (next : Ph → M → Ph)

/-- Each message is read with the table it was written with. -/
inductive Reads : Ph → List M → Ph → Prop
  | nil (ph : Ph) : Reads ph [] ph
  | cons (m : M) (ms : List M) (ph' : Ph) : Reads (next (table m) m) ms ph' → Reads (table m) (m :: ms) ph'

variable {table next} {ph' ph'' : Ph} {ms ms' : List M}

theorem Reads.done (h : Reads table next ph [] ph') : ph = ph' := by
  cases h
  rfl

theorem Reads.head (h : Reads table next ph (m :: ms) ph') : table m = ph := by
  cases h
  rfl

theorem Reads.tail (h : Reads table next ph (m :: ms) ph') : Reads table next (next ph m) ms ph' := by
  cases h
  assumption

theorem Reads.append (h : Reads table next ph ms ph') (h' : Reads table next ph' ms' ph'') :
    Reads table next ph (ms ++ ms') ph'' := by
  induction h with
  | nil => exact h'
  | cons m ms ph' _ ih => exact .cons m (ms ++ ms') ph'' (ih h')

theorem Reads.split (h : Reads table next ph (ms ++ ms') ph'') :
    ∃ ph', Reads table next ph ms ph' ∧ Reads table next ph' ms' ph'' := by
  induction ms generalizing ph with
  | nil => exact ⟨ph, .nil ph, h⟩
  | cons m ms ih =>
    obtain ⟨ph', h1, h2⟩ := ih h.tail
    obtain rfl := h.head
    exact ⟨ph', .cons m ms ph' h1, h2⟩

theorem Reads.unique (h : Reads table next ph ms ph') (h' : Reads table next ph ms ph'') : ph' = ph'' := by
  induction h with
  | nil => exact h'.done
  | cons m ms ph' _ ih => exact ih h'.tail

/-- Messages of one phase that stay in it. -/
theorem Reads.steady (h : ∀ m ∈ ms, table m = ph ∧ next ph m = ph) : Reads table next ph ms ph := by
  induction ms with
  | nil => exact .nil ph
  | cons m ms ih =>
    obtain ⟨hm, hn⟩ := h m List.mem_cons_self
    have hms := ih fun m' hm' => h m' (List.mem_cons_of_mem _ hm')
    subst hm
    refine .cons m ms _ ?_
    rwa [hn]

theorem Reads.one (m : M) : Reads table next (table m) [m] (next (table m) m) := .cons m [] _ (.nil _)

/-- A phase that was not there at the beginning was entered by a message, and
not left since. -/
theorem Reads.entered (h : Reads table next ph ms ph') (hne : ph ≠ ph') :
    ∃ a m b, ms = a ++ m :: b ∧ table m ≠ ph' ∧ next (table m) m = ph' ∧
      ∀ x ∈ b, table x = ph' ∧ next ph' x = ph' := by
  induction ms using List.reverseRecOn generalizing ph' with
  | nil => exact absurd h.done hne
  | append_singleton ms m ih =>
    obtain ⟨ph1, h1, hlast⟩ := h.split
    have hm := hlast.head
    have hn := hlast.tail.done
    by_cases hph : ph1 = ph'
    · subst hph
      obtain ⟨a, m', b, rfl, hentered, hsince⟩ := ih h1 hne
      refine ⟨a, m', b ++ [m], by simp, hentered, hsince.1, fun x hx => ?_⟩
      rcases List.mem_append.1 hx with hx | hx
      · exact hsince.2 x hx
      · rw [List.mem_singleton.1 hx]
        exact ⟨hm, hn⟩
    · subst hm
      exact ⟨ms, m, [], rfl, hph, hn, by simp⟩

end reading

end ProgLib.Handshake
