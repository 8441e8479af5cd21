import Mathlib.Tactic.Common
/-!
# Programs with state and exceptions

`EStateM ε σ` is a program on a state `σ` that can raise an `ε`; a raise keeps
the effects made so far, as an exception does in an imperative language. The
lemmas run a program step by step, whichever way each step ends.
-/

namespace ProgLib

variable {ε σ α β : Type}

/-- The state a run stops in, returned or raised. -/
def endState (x : EStateM ε σ α) (s : σ) : σ :=
  match x s with
  | .ok _ t => t
  | .error _ t => t

theorem endState_ok {x : EStateM ε σ α} {s t : σ} {a : α} (h : x s = .ok a t) : endState x s = t := by
  rw [endState, h]

theorem endState_error {x : EStateM ε σ α} {s t : σ} {e : ε} (h : x s = .error e t) : endState x s = t := by
  rw [endState, h]

/-! ## Running a program -/

theorem bind_ok {x : EStateM ε σ α} {s t : σ} {a : α} (h : x s = .ok a t) (f : α → EStateM ε σ β) :
    (x >>= f) s = f a t := by
  show EStateM.bind x f s = _
  simp [EStateM.bind, h]

theorem bind_error {x : EStateM ε σ α} {s t : σ} {e : ε} (h : x s = .error e t)
    (f : α → EStateM ε σ β) : (x >>= f) s = .error e t := by
  show EStateM.bind x f s = _
  simp [EStateM.bind, h]

/-- Without a state. -/
theorem except_bind_ok {x : Except ε α} {a : α} (h : x = .ok a) (f : α → Except ε β) : (x >>= f) = f a := by
  rw [h]
  rfl

@[simp] theorem pure_run (a : α) (s : σ) : (pure a : EStateM ε σ α) s = .ok a s := rfl
@[simp] theorem throw_run (e : ε) (s : σ) : (throw e : EStateM ε σ α) s = .error e s := rfl
@[simp] theorem get_run (s : σ) : (get : EStateM ε σ σ) s = .ok s s := rfl
@[simp] theorem set_run (s t : σ) : (set t : EStateM ε σ PUnit) s = .ok ⟨⟩ t := rfl
@[simp] theorem modify_run (f : σ → σ) (s : σ) : (modify f : EStateM ε σ PUnit) s = .ok ⟨⟩ (f s) := rfl

@[simp] theorem get_bind (f : σ → EStateM ε σ β) (s : σ) : (get >>= f) s = f s s := rfl
@[simp] theorem modify_bind (g : σ → σ) (f : PUnit → EStateM ε σ β) (s : σ) :
    (modify g >>= f) s = f ⟨⟩ (g s) := rfl
@[simp] theorem throw_bind (e : ε) (f : α → EStateM ε σ β) (s : σ) :
    ((throw e : EStateM ε σ α) >>= f) s = .error e s := rfl

theorem tryCatch_ok {x : EStateM ε σ α} {s t : σ} {a : α} (h : x s = .ok a t) (f : ε → EStateM ε σ α) :
    (tryCatch x f) s = .ok a t := by
  show EStateM.tryCatch x f s = _
  simp [EStateM.tryCatch, h]

/-- A handler starts in the state the raise left behind. -/
theorem tryCatch_error {x : EStateM ε σ α} {s t : σ} {e : ε} (h : x s = .error e t)
    (f : ε → EStateM ε σ α) : (tryCatch x f) s = f e t := by
  show EStateM.tryCatch x f s = _
  simp only [EStateM.tryCatch, h]
  rfl

/-! ## Where a program stops -/

theorem endState_bind {x : EStateM ε σ α} {f : α → EStateM ε σ β} {I : σ → Prop} {s : σ} (hx : I (endState x s))
    (hf : ∀ a t, I t → I (endState (f a) t)) : I (endState (x >>= f) s) := by
  cases h : x s with
  | ok a t =>
    rw [endState_ok h] at hx
    rw [endState, bind_ok h]
    exact hf a t hx
  | error e t =>
    rw [endState_error h] at hx
    rwa [endState, bind_error h]

end ProgLib
