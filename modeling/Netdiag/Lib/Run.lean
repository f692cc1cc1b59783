import Mathlib.Logic.Relation

/-!
# Run — systems that take operations and give outputs

A system is a relation `step s op s' out`: in state `s` the operation `op` leads to `s'` and gives
the outputs `out`.  `Run` is a finite sequence of steps with all outputs in order, and
`Run.safe` is the rule for what holds of every state and every output of every run.
`Run.invariant` is the one for what a state has to do with all outputs before it.
-/

namespace Netdiag
namespace Lib

variable {σ ι ο : Type*} {step : σ → ι → σ → List ο → Prop}

inductive Run (step : σ → ι → σ → List ο → Prop) : σ → σ → List ο → Prop where
  | refl (s : σ) : Run step s s []
  | tail {s t u : σ} {op : ι} {out more : List ο} :
      Run step s t out → step t op u more → Run step s u (out ++ more)

namespace Run

/-- An invariant that every step keeps, and that makes every output good. -/
theorem safe {I : σ → Prop} {Good : ο → Prop}
    (hstep : ∀ s op t out, I s → step s op t out → I t ∧ ∀ o ∈ out, Good o)
    {s t : σ} {out : List ο} (h : Run step s t out) (hs : I s) : I t ∧ ∀ o ∈ out, Good o := by
  induction h with
  | refl => exact ⟨hs, fun o ho => absurd ho List.not_mem_nil⟩
  | tail _ hlast ih =>
      rcases ih with ⟨ht, hout⟩
      rcases hstep _ _ _ _ ht hlast with ⟨hu, hmore⟩
      refine ⟨hu, ?_⟩
      intro o ho
      rcases List.mem_append.1 ho with ho | ho
      · exact hout o ho
      · exact hmore o ho

/-- What holds of the first state with no outputs, and of the next state with the outputs of its
step behind those before it, holds at the end of every run. -/
theorem invariant {J : σ → List ο → Prop}
    (hstep : ∀ t op u out more, J t out → step t op u more → J u (out ++ more)) {s t : σ}
    {out : List ο} (h : Run step s t out) (hs : J s []) : J t out := by
  induction h with
  | refl => exact hs
  | tail _ hlast ih => exact hstep _ _ _ _ _ ih hlast

/-- A run of some of the steps of a system is a run of the system. -/
theorem mono {step' : σ → ι → σ → List ο → Prop}
    (hstep : ∀ s op t out, step s op t out → step' s op t out) {s t : σ} {out : List ο}
    (h : Run step s t out) : Run step' s t out := by
  induction h with
  | refl => exact .refl s
  | tail _ hlast ih => exact ih.tail (hstep _ _ _ _ hlast)

end Run
end Lib
end Netdiag
