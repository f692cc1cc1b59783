import Mathlib.Tactic.Common
import Netdiag.Lib.Loop

/-!
# Uniform — programs that do the same in every state

A program that carries a state along without looking at it fails in the same way in every state,
or does to every state the same.  `Uniform S f` says so of a program `f`, where the predicate `S`
says what it may do to a state: `S` holds of a function from states to results.

The rules take a program apart.  Reads do not depend on the state (`Uniform.bind_same`), and a loop
is uniform if its turns are (`Uniform.exec`).
-/

namespace Netdiag
namespace Lib

universe u v

variable {σ π : Type*} {ε : Type u} {α β δ : Type v}

/-- The program fails in the same way in every state, or computes one function of the state. -/
def Uniform (S : (σ → α) → Prop) (f : σ → Except ε α) : Prop :=
  (∃ k, S k ∧ ∀ s, f s = .ok (k s)) ∨ ∃ e, ∀ s, f s = .error e

namespace Uniform

variable {S : (σ → α) → Prop} {T : (σ → β) → Prop}

theorem ok {k : σ → α} (h : S k) : Uniform S (fun s => (.ok (k s) : Except ε α)) :=
  .inl ⟨k, h, fun _ => rfl⟩

/-- The program starts with a computation that the state has no part in. -/
theorem bind_same (x : Except ε δ) {f : δ → σ → Except ε α} (h : ∀ v, Uniform S (f v)) :
    Uniform S (fun s => x >>= fun v => f v s) := by
  cases x with
  | ok v => exact h v
  | error e => exact .inr ⟨e, fun _ => rfl⟩

theorem bind {f : σ → Except ε α} {g : α → Except ε β} (hf : Uniform S f)
    (h : ∀ k, S k → Uniform T (fun s => g (k s))) : Uniform T (fun s => f s >>= g) := by
  rcases hf with ⟨k, hk, hfk⟩ | ⟨e, he⟩
  · have hbind : (fun s => f s >>= g) = fun s => g (k s) := by
      funext s
      rw [hfk s]
      rfl
    rw [hbind]
    exact h k hk
  · refine .inr ⟨e, fun s => ?_⟩
    show f s >>= g = .error e
    rw [he s]
    rfl

/-! ## Loops -/

/-- What a turn may do to the state that a loop carries along: leave or go on, with a state that
has been changed in one of the ways of `M`. -/
def TurnShape (M : (σ → σ) → Prop) (k : σ → Turn (π × σ) σ) : Prop :=
  ∃ f, M f ∧ ((∀ s, k s = .leave (f s)) ∨ ∃ pos, ∀ s, k s = .again (pos, f s))

theorem leave {M : (σ → σ) → Prop} {f : σ → σ} (h : M f) :
    Uniform (TurnShape M) (fun s => (.ok (.leave (f s)) : Except ε (Turn (π × σ) σ))) :=
  .ok ⟨f, h, .inl fun _ => rfl⟩

theorem again {M : (σ → σ) → Prop} {f : σ → σ} (pos : π) (h : M f) :
    Uniform (TurnShape M) (fun s => (.ok (.again (pos, f s)) : Except ε (Turn (π × σ) σ))) :=
  .ok ⟨f, h, .inr ⟨pos, fun _ => rfl⟩⟩

/-- The rule for loops, for changes that can be made one after the other. -/
theorem exec {M : (σ → σ) → Prop} (hcomp : ∀ f g, M f → M g → M (g ∘ f))
    {turn : π × σ → Except ε (Turn (π × σ) σ)}
    (hturn : ∀ pos, Uniform (TurnShape M) (fun s => turn (pos, s))) (stuck : ε) (fuel : Nat)
    (pos : π) : Uniform M (fun s => Loop.exec turn stuck fuel (pos, s)) := by
  induction fuel generalizing pos with
  | zero => exact .inr ⟨stuck, fun _ => rfl⟩
  | succ fuel ih =>
      -- The first turn leaves, goes on or fails, and does the same in every state.
      rcases hturn pos with ⟨k, ⟨f, hf, hleave | ⟨pos', hagain⟩⟩, hk⟩ | ⟨e, he⟩
      · refine .inl ⟨f, hf, fun s => ?_⟩
        have hfirst : turn (pos, s) = .ok (.leave (f s)) := (hk s).trans (by rw [hleave])
        exact Loop.exec_of_run (Loop.run_leave hfirst fuel)
      · -- The turns that are left start at `pos'`, in the state that `f` has made.
        have hfirst : ∀ s, turn (pos, s) = .ok (.again (pos', f s)) :=
          fun s => (hk s).trans (by rw [hagain])
        have hrest : (fun s => Loop.exec turn stuck (fuel + 1) (pos, s)) =
            fun s => Loop.exec turn stuck fuel (pos', f s) := by
          funext s
          rw [Loop.exec, Loop.run_again (hfirst s), Loop.exec]
        rw [hrest]
        rcases ih pos' with ⟨g, hg, hexec⟩ | ⟨e, he⟩
        · exact .inl ⟨g ∘ f, hcomp f g hf hg, fun s => hexec (f s)⟩
        · exact .inr ⟨e, fun s => he (f s)⟩
      · exact .inr ⟨e, fun s => Loop.exec_of_run (Loop.run_error (he s) fuel)⟩

end Uniform
end Lib
end Netdiag
