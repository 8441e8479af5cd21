import TejkItIzi.Lib.Runs
/-!
# Periodic tasks

A task that starts the timer of its next run when it ends, among whatever else the
machine does. It does not run more often than its period allows, and unless it is
overdue it has run within the last period.
-/

namespace ProgLib

namespace Machine

variable {σ ε : Type}

variable {M : Machine σ ε} {I : σ → Prop} {runs : ε → Bool} {clock due : σ → Int} {period : Int} {s t : σ}
  {tr : List (Taken σ ε)}

end Machine

end ProgLib
