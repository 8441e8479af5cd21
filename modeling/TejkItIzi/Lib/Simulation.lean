import Mathlib.Data.List.Forall2
import TejkItIzi.Lib.Runs
/-!
# One machine inside another

A machine simulates another if it can match every step of the other with a run
that shows the same. Then it can match whole runs, block by block, and what holds
in all its reachable states carries over.
-/

namespace ProgLib

variable {σ ε τ δ ο : Type}

/-- `N` can follow `M`: related states stay related, and a step of `M` shows
(`viewM`) what the steps that match it show (`viewN`). -/
structure Simulation (M : Machine σ ε) (N : Machine τ δ) (R : σ → τ → Prop) (viewM : Taken σ ε → List ο)
    (viewN : Taken τ δ → List ο) : Prop where
  init : ∀ s, M.init s → ∃ t, N.init t ∧ R s t
  step : ∀ s e s' t, M.Reachable s → R s t → M.step s e s' →
    ∃ tr t', N.Run t tr t' ∧ R s' t' ∧ tr.flatMap viewN = viewM ⟨s, e, s'⟩

/-- A run seen through functions: each step is one step of `N`. -/
theorem Machine.Run.image {M : Machine σ ε} {N : Machine τ δ} {s s' : σ} {tr : List (Taken σ ε)} (f : σ → τ)
    (g : σ → ε → δ) (hr : M.Run s tr s') (hs : M.Reachable s)
    (h : ∀ s e s', M.Reachable s → M.step s e s' → N.step (f s) (g s e) (f s')) :
    N.Run (f s) (tr.map fun x => ⟨f x.pre, g x.pre x.event, f x.post⟩) (f s') := by
  induction hr with
  | nil => exact .nil
  | @snoc tr s1 e s2 hr hstep ih =>
    rw [List.map_append]
    exact ih.snoc (h s1 e s2 (hs.run hr) hstep)

namespace Simulation

variable {M : Machine σ ε} {N : Machine τ δ} {R : σ → τ → Prop}
  {viewM : Taken σ ε → List ο} {viewN : Taken τ δ → List ο} {s s' : σ} {t : τ} {tr : List (Taken σ ε)}

/-- A run is followed by a run: one block of steps for each step. -/
theorem run (h : Simulation M N R viewM viewN) (hs : M.Reachable s) (hst : R s t) (hr : M.Run s tr s') :
    ∃ blocks t', N.Run t blocks.flatten t' ∧ R s' t' ∧
      List.Forall₂ (fun x block => block.flatMap viewN = viewM x) tr blocks := by
  induction hr with
  | nil => exact ⟨[], t, .nil, hst, .nil⟩
  | @snoc tr s1 e s2 hr hstep ih =>
    obtain ⟨blocks, t1, hrun, hst1, hview⟩ := ih
    obtain ⟨block, t2, hrun2, hst2, hshow⟩ := h.step s1 e s2 t1 (hs.run hr) hst1 hstep
    refine ⟨blocks ++ [block], t2, ?_, hst2, ?_⟩
    · rw [List.flatten_append, List.flatten_singleton]
      exact hrun.trans hrun2
    · exact List.rel_append hview (.cons hshow .nil)

/-- Both runs show the same. -/
theorem shows (h : Simulation M N R viewM viewN) (hs : M.Reachable s) (hst : R s t) (hr : M.Run s tr s') :
    ∃ tr' t', N.Run t tr' t' ∧ R s' t' ∧ tr'.flatMap viewN = tr.flatMap viewM := by
  obtain ⟨blocks, t', hrun, hst', hview⟩ := h.run hs hst hr
  refine ⟨blocks.flatten, t', hrun, hst', ?_⟩
  clear hrun hst hr
  induction hview with
  | nil => rfl
  | cons hx _ ih => rw [List.flatten_cons, List.flatMap_append, List.flatMap_cons, hx, ih]

theorem reachable (h : Simulation M N R viewM viewN) (hs : M.Reachable s) : ∃ t, N.Reachable t ∧ R s t := by
  obtain ⟨s0, tr, h0, hr⟩ := hs
  obtain ⟨t0, ht0, hst0⟩ := h.init s0 h0
  obtain ⟨tr', t, hrun, hst, _⟩ := h.shows (.init h0) hst0 hr
  exact ⟨t, (Machine.Reachable.init ht0).run hrun, hst⟩

end Simulation

end ProgLib
