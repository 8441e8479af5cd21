import Mathlib.Data.List.Induction
import Mathlib.Tactic.Common
/-!
# Runs of a machine

A machine is a set of initial states and a labelled step relation. A `Run`
keeps every step it took, with the states on both sides, so that a statement
about a run can speak about any moment of it: "since then", "at some earlier
step", "in every state in between".
-/

namespace ProgLib

/-- Initial states and labelled steps. -/
structure Machine (σ ε : Type) where
  init : σ → Prop
  step : σ → ε → σ → Prop

/-- One step of a run. -/
structure Taken (σ ε : Type) where
  pre : σ
  event : ε
  post : σ

namespace Machine

variable {σ ε : Type}

/-- `M.Run s tr t`: the steps `tr`, taken from `s` on, lead to `t`. -/
inductive Run (M : Machine σ ε) (s : σ) : List (Taken σ ε) → σ → Prop
  | nil : Run M s [] s
  | snoc {tr t e u} : Run M s tr t → M.step t e u → Run M s (tr ++ [⟨t, e, u⟩]) u

/-- States some run from an initial state leads to. -/
def Reachable (M : Machine σ ε) (t : σ) : Prop := ∃ s tr, M.init s ∧ M.Run s tr t

variable {M : Machine σ ε} {s t u : σ} {tr tr' : List (Taken σ ε)} {e : ε}

theorem Reachable.init (h : M.init s) : M.Reachable s := ⟨s, [], h, .nil⟩

theorem Reachable.step (h : M.Reachable s) (hs : M.step s e t) : M.Reachable t := by
  obtain ⟨s0, tr, h0, hr⟩ := h
  exact ⟨s0, _, h0, hr.snoc hs⟩

/-! ## Taking runs apart -/

theorem Run.trans (h : M.Run s tr t) (h' : M.Run t tr' u) : M.Run s (tr ++ tr') u := by
  induction h' with
  | nil => simpa using h
  | snoc _ hs ih => rw [← List.append_assoc]; exact ih.snoc hs

theorem Reachable.run (h : M.Reachable s) (hr : M.Run s tr t) : M.Reachable t := by
  obtain ⟨s0, tr0, h0, h1⟩ := h
  exact ⟨s0, _, h0, h1.trans hr⟩

theorem run_nil : M.Run s [] t ↔ s = t := by
  constructor
  · intro h
    generalize hn : ([] : List (Taken σ ε)) = tr at h
    cases h with
    | nil => rfl
    | snoc _ _ => simp at hn
  · rintro rfl
    exact .nil

theorem run_snoc {x : Taken σ ε} :
    M.Run s (tr ++ [x]) u ↔ M.Run s tr x.pre ∧ M.step x.pre x.event x.post ∧ x.post = u := by
  constructor
  · intro h
    generalize hn : tr ++ [x] = l at h
    cases h with
    | nil => simp at hn
    | snoc hr hs =>
      obtain ⟨rfl, hx⟩ := List.append_inj' hn rfl
      simp only [List.cons.injEq, and_true] at hx
      subst hx
      exact ⟨hr, hs, rfl⟩
  · rintro ⟨hr, hs, rfl⟩
    exact hr.snoc hs

/-- A run can be cut anywhere. -/
theorem run_append : M.Run s (tr ++ tr') u ↔ ∃ t, M.Run s tr t ∧ M.Run t tr' u := by
  constructor
  · induction tr' using List.reverseRecOn generalizing u with
    | nil => intro h; exact ⟨u, by simpa using h, .nil⟩
    | append_singleton tr' x ih =>
      intro h
      rw [← List.append_assoc, run_snoc] at h
      obtain ⟨hr, hs, rfl⟩ := h
      obtain ⟨t, h1, h2⟩ := ih hr
      exact ⟨t, h1, h2.snoc hs⟩
  · rintro ⟨t, h1, h2⟩
    exact h1.trans h2

theorem run_cons {x : Taken σ ε} :
    M.Run s (x :: tr) u ↔ x.pre = s ∧ M.step x.pre x.event x.post ∧ M.Run x.post tr u := by
  rw [← List.singleton_append, run_append]
  constructor
  · rintro ⟨t, h1, h2⟩
    rw [← List.nil_append [x], run_snoc, run_nil] at h1
    obtain ⟨hs, hx, rfl⟩ := h1
    exact ⟨hs.symm, hx, h2⟩
  · rintro ⟨rfl, hs, hr⟩
    exact ⟨x.post, Run.nil.snoc hs, hr⟩

/-- Every step of a run is one of the machine's. -/
theorem Run.step_of_mem (h : M.Run s tr t) {x : Taken σ ε} (hx : x ∈ tr) : M.step x.pre x.event x.post := by
  obtain ⟨l, r, rfl⟩ := List.append_of_mem hx
  obtain ⟨_, _, h2⟩ := run_append.1 h
  exact (run_cons.1 h2).2.1

/-- A run whose steps are steps of another machine is a run of that machine. -/
theorem Run.of_steps {M' : Machine σ ε} (h : M.Run s tr t)
    (hs : ∀ x ∈ tr, M.step x.pre x.event x.post → M'.step x.pre x.event x.post) : M'.Run s tr t := by
  induction h with
  | nil => exact .nil
  | @snoc tr t e u _ hst ih =>
    exact (ih fun x hx => hs x (by simp [hx])).snoc (hs ⟨t, e, u⟩ (by simp) hst)

theorem Reachable.of_steps {M' : Machine σ ε} (h : M.Reachable t) (h0 : ∀ s, M.init s → M'.init s)
    (hs : ∀ s e u, M.step s e u → M'.step s e u) : M'.Reachable t := by
  obtain ⟨s, tr, hi, hr⟩ := h
  exact ⟨s, tr, h0 s hi, hr.of_steps fun _ _ hx => hs _ _ _ hx⟩

/-- The machine with only those of its steps that meet `C`. -/
def only (M : Machine σ ε) (C : σ → ε → Prop) : Machine σ ε where
  init := M.init
  step s e t := C s e ∧ M.step s e t

theorem Run.of_only {C : σ → ε → Prop} (h : (M.only C).Run s tr t) : M.Run s tr t := h.of_steps fun _ _ hs => hs.2

theorem Reachable.of_only {C : σ → ε → Prop} (h : (M.only C).Reachable t) : M.Reachable t :=
  h.of_steps (fun _ h0 => h0) fun _ _ _ hs => hs.2

/-- Every step of a run starts in a state the run had reached. -/
theorem Run.reachable_pre (h : M.Run s tr t) (hs : M.Reachable s) {x : Taken σ ε} (hx : x ∈ tr) :
    M.Reachable x.pre := by
  obtain ⟨l, r, rfl⟩ := List.append_of_mem hx
  obtain ⟨u, h1, h2⟩ := run_append.1 h
  rw [(run_cons.1 h2).1]
  exact hs.run h1

/-! ## Invariants -/

/-- A predicate that holds at the start and that every step meeting `C` keeps
holds after every run whose steps all meet `C`. -/
theorem Run.keeps {I : σ → Prop} {C : σ → ε → Prop}
    (hstep : ∀ s e t, I s → C s e → M.step s e t → I t) (h : M.Run s tr t)
    (hc : ∀ x ∈ tr, C x.pre x.event) (h0 : I s) : I t := by
  induction h with
  | nil => exact h0
  | @snoc tr t e u _ hs ih =>
    have hce : C t e := hc ⟨t, e, u⟩ (by simp)
    exact hstep t e u (ih (fun x hx => hc x (by simp [hx]))) hce hs

/-- A predicate of the initial states that every step keeps holds in every
reachable state. -/
theorem Reachable.keeps {I : σ → Prop} (h0 : ∀ s, M.init s → I s)
    (hstep : ∀ s e t, I s → M.step s e t → I t) (h : M.Reachable t) : I t := by
  obtain ⟨s, tr, hi, hr⟩ := h
  exact hr.keeps (C := fun _ _ => True) (fun s e t hs _ => hstep s e t hs) (fun _ _ => trivial) (h0 s hi)

/-- An invariant `J` whose steps rest on what every reachable state has. -/
theorem Run.keeps_over {I J : σ → Prop} (hI : ∀ s, M.Reachable s → I s)
    (hstep : ∀ s e t, I s → J s → M.step s e t → J t) (h : M.Run s tr t) (hs : M.Reachable s) (h0 : J s) : J t := by
  induction h with
  | nil => exact h0
  | snoc hr hst ih => exact hstep _ _ _ (hI _ (hs.run hr)) ih hst

theorem Reachable.keeps_over {I J : σ → Prop} (hI : ∀ s, M.Reachable s → I s) (h0 : ∀ s, M.init s → J s)
    (hstep : ∀ s e t, I s → J s → M.step s e t → J t) (h : M.Reachable t) : J t := by
  obtain ⟨s, tr, hi, hr⟩ := h
  exact hr.keeps_over hI hstep (.init hi) (h0 s hi)

/-! ## Since then -/

/-- What holds now but not at the start was brought about by some step `A`, and
has held ever since, with everything (`G`) it implies. -/
theorem Run.since {L G : σ → Prop} {A : Taken σ ε → Prop} (h : M.Run s tr t) (h0 : ¬ L s)
    (hstep : ∀ x ∈ tr, L x.post → (L x.pre ∨ A x) ∧ G x.post) (ht : L t) :
    ∃ l y r, tr = l ++ y :: r ∧ A y ∧ ∀ z ∈ y :: r, G z.post := by
  induction h with
  | nil => exact absurd ht h0
  | @snoc tr t e u _ _ ih =>
    obtain ⟨hback, hg⟩ := hstep ⟨t, e, u⟩ (by simp) ht
    rcases hback with hl | ha
    · obtain ⟨l, y, r, rfl, hy, hr⟩ := ih (fun x hx => hstep x (by simp [hx])) hl
      refine ⟨l, y, r ++ [⟨t, e, u⟩], by simp, hy, ?_⟩
      intro z hz
      rw [← List.cons_append, List.mem_append, List.mem_singleton] at hz
      rcases hz with hz | rfl
      · exact hr z hz
      · exact hg
    · exact ⟨tr, ⟨t, e, u⟩, [], rfl, ha, by simpa using hg⟩

/-- What holds at the start holds at the end, unless some step `R` has undone it. -/
theorem Run.kept {L : σ → Prop} {R : Taken σ ε → Prop} (h : M.Run s tr t)
    (hstep : ∀ x ∈ tr, L x.pre → L x.post ∨ R x) (hs : L s) : L t ∨ ∃ x ∈ tr, R x := by
  induction h with
  | nil => exact .inl hs
  | @snoc tr t e u _ _ ih =>
    rcases ih fun x hx => hstep x (by simp [hx]) with hl | ⟨x, hx, hr⟩
    · exact (hstep ⟨t, e, u⟩ (by simp) hl).imp id fun hr => ⟨⟨t, e, u⟩, by simp, hr⟩
    · exact .inr ⟨x, by simp [hx], hr⟩

end Machine

end ProgLib
