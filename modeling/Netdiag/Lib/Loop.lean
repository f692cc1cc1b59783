import Mathlib.Logic.Relation
import Mathlib.Order.Basic

/-!
# Loop — while loops that may fail or run forever

A `while` loop is given by the function that makes one **turn** of it: from the loop state it
either fails with an error, leaves the loop with a result, or goes round again from a new state.

- `run fuel s` makes at most `fuel` turns; `none` means that the loop is still going,
- `Terminates s` says that some amount of fuel is enough,
- `Reaches s t` says that the loop comes to stand at `t` when it starts at `s`.

The rules below are the ones a proof about a loop needs: an invariant for every state reached,
a variant for termination, and a set of states that the loop never leaves for divergence.
-/

namespace Netdiag
namespace Lib

/-- What one turn of a loop ends with. -/
inductive Turn (σ β : Type*) where
  | leave (result : β)
  | again (state : σ)
  deriving DecidableEq, Repr

namespace Loop

variable {σ β ε : Type*} (turn : σ → Except ε (Turn σ β))

/-! ## Running a loop -/

/-- At most `fuel` turns from the given state; `none` when the loop has not ended by then. -/
def run : Nat → σ → Option (Except ε β)
  | 0, _ => none
  | fuel + 1, s =>
      match turn s with
      | .error e => some (.error e)
      | .ok (.leave b) => some (.ok b)
      | .ok (.again t) => run fuel t

/-- The loop ends, with a result or with an error. -/
def Terminates (s : σ) : Prop :=
  ∃ fuel r, run turn fuel s = some r

/-- One turn takes the loop from `s` to `t`. -/
def Again (s t : σ) : Prop :=
  turn s = .ok (.again t)

/-- The loop comes to stand at `t` when started at `s`. -/
def Reaches (s t : σ) : Prop :=
  Relation.ReflTransGen (Again turn) s t

/-- Run with a bound on the turns, where running out of turns is an error of its own. -/
def exec (stuck : ε) (fuel : Nat) (s : σ) : Except ε β :=
  (run turn fuel s).getD (.error stuck)

variable {turn}

theorem run_leave {s : σ} {b : β} (h : turn s = .ok (.leave b)) (fuel : Nat) :
    run turn (fuel + 1) s = some (.ok b) := by
  simp [run, h]

theorem run_again {s t : σ} (h : turn s = .ok (.again t)) (fuel : Nat) :
    run turn (fuel + 1) s = run turn fuel t := by
  simp [run, h]

theorem run_error {s : σ} {e : ε} (h : turn s = .error e) (fuel : Nat) :
    run turn (fuel + 1) s = some (.error e) := by
  simp [run, h]

/-- More fuel never changes the result of a loop that has ended. -/
theorem run_mono {fuel more : Nat} (hle : fuel ≤ more) {s : σ} {r : Except ε β}
    (h : run turn fuel s = some r) : run turn more s = some r := by
  induction fuel generalizing s more with
  | zero => simp [run] at h
  | succ fuel ih =>
      obtain ⟨more, rfl⟩ : ∃ m, more = m + 1 := ⟨more - 1, by omega⟩
      have hle' : fuel ≤ more := by omega
      -- Both runs make the same first turn; only one that goes on needs the fuel that is left.
      cases hs : turn s with
      | error e =>
          rw [run_error hs] at h ⊢
          exact h
      | ok next =>
          cases next with
          | leave b =>
              rw [run_leave hs] at h ⊢
              exact h
          | again t =>
              rw [run_again hs] at h ⊢
              exact ih hle' h

/-- The result of a loop does not depend on how much fuel it was given. -/
theorem run_unique {fuel₁ fuel₂ : Nat} {s : σ} {r₁ r₂ : Except ε β}
    (h₁ : run turn fuel₁ s = some r₁) (h₂ : run turn fuel₂ s = some r₂) : r₁ = r₂ := by
  -- Both runs end with their result under the larger of the two bounds.
  have h₁' := run_mono (Nat.le_max_left fuel₁ fuel₂) h₁
  have h₂' := run_mono (Nat.le_max_right fuel₁ fuel₂) h₂
  exact Option.some.inj (h₁'.symm.trans h₂')

theorem exec_of_run {stuck : ε} {fuel : Nat} {s : σ} {r : Except ε β}
    (h : run turn fuel s = some r) : exec turn stuck fuel s = r := by
  simp [exec, h]

/-! ## Invariants of a run -/

theorem Reaches.refl (s : σ) : Reaches turn s s :=
  Relation.ReflTransGen.refl

theorem Reaches.tail {s t u : σ} (h : Reaches turn s t) (hu : turn t = .ok (.again u)) :
    Reaches turn s u :=
  Relation.ReflTransGen.tail h hu

/-- What holds at the start and is kept by every turn holds wherever the loop comes to stand. -/
theorem Reaches.invariant {I : σ → Prop} {s t : σ} (h : Reaches turn s t) (h₀ : I s)
    (hstep : ∀ s t, I s → turn s = .ok (.again t) → I t) : I t := by
  induction h with
  | refl => exact h₀
  | tail _ hturn ih => exact hstep _ _ ih hturn

/-- A loop that ends does so with what it ends with at any state on its way. -/
theorem run_of_reaches {s t : σ} (h : Reaches turn s t) {fuel : Nat} {r : Except ε β}
    (hr : run turn fuel s = some r) : ∃ fuel', run turn fuel' t = some r := by
  induction h with
  | refl => exact ⟨fuel, hr⟩
  | tail _ hturn ih =>
      obtain ⟨fuel', hf⟩ := ih
      cases fuel' with
      | zero => simp [run] at hf
      | succ fuel' =>
          rw [run_again hturn] at hf
          exact ⟨fuel', hf⟩

/-- A loop that is caught in a set of states that it never leaves runs forever. -/
theorem run_eq_none_of_caught {C : σ → Prop}
    (hC : ∀ s, C s → ∃ t, turn s = .ok (.again t) ∧ C t) {s : σ} (hs : C s) (fuel : Nat) :
    run turn fuel s = none := by
  induction fuel generalizing s with
  | zero => rfl
  | succ fuel ih =>
      obtain ⟨t, ht, hCt⟩ := hC s hs
      rw [run_again ht]
      exact ih hCt

/-- A loop that comes to stand in such a set runs forever from its start. -/
theorem not_terminates_of_reaches_caught {C : σ → Prop}
    (hC : ∀ s, C s → ∃ t, turn s = .ok (.again t) ∧ C t) {s t : σ}
    (h : Reaches turn s t) (ht : C t) : ¬ Terminates turn s := by
  rintro ⟨fuel, r, hr⟩
  obtain ⟨fuel', hf⟩ := run_of_reaches h hr
  rw [run_eq_none_of_caught hC ht] at hf
  cases hf

end Loop
end Lib
end Netdiag
