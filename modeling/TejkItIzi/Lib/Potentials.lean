import TejkItIzi.Lib.Runs
/-!
# Potentials

What the steps of a run cost can be paid from a potential. If only some steps
raise it, by a known amount, then so many steps that cost can be taken and no
more; and if some step that costs can be taken unless the work is done, the
work can be done.
-/

namespace ProgLib

namespace Machine

variable {σ ε : Type} {M : Machine σ ε} {s t : σ} {tr : List (Taken σ ε)}

/-- Each step that costs takes one from the potential `v`, and each step that
gains adds at most `a`. -/
theorem Run.pays {I : σ → Prop} {C : σ → ε → Prop} {v : σ → Nat} {cost gain : Taken σ ε → Bool} {a : Nat}
    (hstep : ∀ s e t, I s → C s e → M.step s e t →
      I t ∧ (cost ⟨s, e, t⟩).toNat + v t ≤ v s + a * (gain ⟨s, e, t⟩).toNat)
    (h : M.Run s tr t) (hc : ∀ x ∈ tr, C x.pre x.event) (h0 : I s) :
    I t ∧ tr.countP cost + v t ≤ v s + a * tr.countP gain := by
  induction h with
  | nil => exact ⟨h0, by simp⟩
  | @snoc tr t e u hr hst ih =>
    obtain ⟨hi, hsum⟩ := ih fun x hx => hc x (by simp [hx])
    have hce : C t e := hc ⟨t, e, u⟩ (by simp)
    obtain ⟨hi', hlast⟩ := hstep t e u hi hce hst
    have hcount (p : Taken σ ε → Bool) : List.countP p (tr ++ [⟨t, e, u⟩]) = tr.countP p + (p ⟨t, e, u⟩).toNat := by
      rw [List.countP_append, List.countP_singleton]
      cases p (⟨t, e, u⟩ : Taken σ ε) <;> rfl
    refine ⟨hi', ?_⟩
    rw [hcount, hcount, Nat.mul_add]
    omega

/-- Where some step lowers the potential unless the work is done, a run of such
steps leads to where it is done. -/
theorem comes_to {I done : σ → Prop} {C : ε → Prop} {v : σ → Nat}
    (hstep : ∀ s, I s → ¬ done s → ∃ e t, C e ∧ M.step s e t ∧ I t ∧ v t < v s) (hs : I s) :
    ∃ tr t, M.Run s tr t ∧ (∀ x ∈ tr, C x.event) ∧ done t := by
  generalize hn : v s = n
  induction n using Nat.strongRecOn generalizing s with
  | _ n ih =>
    by_cases hd : done s
    · exact ⟨[], s, .nil, fun x hx => absurd hx List.not_mem_nil, hd⟩
    · obtain ⟨e, t, he, hst, ht, hlt⟩ := hstep s hs hd
      obtain ⟨tr, u, hr, hC, hu⟩ := ih (v t) (hn ▸ hlt) ht rfl
      refine ⟨⟨s, e, t⟩ :: tr, u, run_cons.2 ⟨rfl, hst, hr⟩, ?_, hu⟩
      intro x hx
      rcases List.mem_cons.1 hx with rfl | hx
      · exact he
      · exact hC x hx

end Machine

end ProgLib
