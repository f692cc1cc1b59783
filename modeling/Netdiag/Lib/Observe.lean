import Mathlib.Data.List.Basic
import Mathlib.Tactic.Common

/-!
# Observe — what a caller sees of a system

A system takes one input after the other; each either gives an output and leads to the next state,
or fails.  `observe` is all that a caller sees of it: the outputs in order, up to the first
failure.

Two states look the same to every caller if they are related by a relation that every input keeps
and that makes the outputs equal (`observe_eq_of_bisim`).  `RelOk` relates computations that may
fail, and its rules take a relation through the steps of a program.
-/

namespace Netdiag
namespace Lib

universe u v

variable {ε : Type u} {α β γ : Type v}

/-! ## Related computations -/

/-- Both computations fail in the same way, or both return and their results are related. -/
inductive RelOk (R : α → β → Prop) : Except ε α → Except ε β → Prop
  | ok {a : α} {b : β} : R a b → RelOk R (.ok a) (.ok b)
  | error (e : ε) : RelOk R (.error e) (.error e)

namespace RelOk

theorem mono {R S : α → β → Prop} {x : Except ε α} {y : Except ε β} (h : RelOk R x y)
    (hRS : ∀ a b, R a b → S a b) : RelOk S x y := by
  cases h with
  | ok hR => exact .ok (hRS _ _ hR)
  | error e => exact .error e

/-- The programs start with the same computation. -/
theorem bind_same {δ : Type v} {R : β → γ → Prop} (x : Except ε δ) {f : δ → Except ε β}
    {g : δ → Except ε γ} (h : ∀ v, RelOk R (f v) (g v)) : RelOk R (x >>= f) (x >>= g) := by
  cases x with
  | ok v => exact h v
  | error e => exact .error e

theorem bind {δ : Type v} {R : α → β → Prop} {S : γ → δ → Prop} {x : Except ε α}
    {y : Except ε β} {f : α → Except ε γ} {g : β → Except ε δ} (hxy : RelOk R x y)
    (h : ∀ a b, R a b → RelOk S (f a) (g b)) : RelOk S (x >>= f) (y >>= g) := by
  cases hxy with
  | ok hR => exact h _ _ hR
  | error e => exact .error e

theorem refl {R : α → α → Prop} (hR : ∀ a, R a a) (x : Except ε α) : RelOk R x x := by
  cases x with
  | ok a => exact .ok (hR a)
  | error e => exact .error e

/-- The first program returns its result in another form. -/
theorem map_left {R : α → β → Prop} {S : γ → β → Prop} {x : Except ε α} {y : Except ε β}
    (h : RelOk R x y) {f : α → γ} (hf : ∀ a b, R a b → S (f a) b) :
    RelOk S (x >>= fun a => .ok (f a)) y := by
  cases h with
  | ok hR => exact .ok (hf _ _ hR)
  | error e => exact .error e

/-- The results that are related are those of the computations. -/
theorem attach {R : α → β → Prop} {x : Except ε α} {y : Except ε β} (h : RelOk R x y) :
    RelOk (fun a b => R a b ∧ x = .ok a ∧ y = .ok b) x y := by
  cases h with
  | ok hR => exact .ok ⟨hR, rfl, rfl⟩
  | error e => exact .error e

theorem symm {R : α → β → Prop} {x : Except ε α} {y : Except ε β} (h : RelOk R x y) :
    RelOk (fun b a => R a b) y x := by
  cases h with
  | ok hR => exact .ok hR
  | error e => exact .error e

theorem trans {R : α → β → Prop} {S : β → γ → Prop} {x : Except ε α} {y : Except ε β}
    {z : Except ε γ} (hxy : RelOk R x y) (hyz : RelOk S y z) :
    RelOk (fun a c => ∃ b, R a b ∧ S b c) x z := by
  cases hxy with
  | ok hR =>
      cases hyz with
      | ok hS => exact .ok ⟨_, hR, hS⟩
  | error e =>
      cases hyz
      exact .error e

/-- If one of the computations returns, so does the other. -/
theorem of_ok {R : α → β → Prop} {x : Except ε α} {y : Except ε β} (h : RelOk R x y) {a : α}
    (hx : x = .ok a) : ∃ b, y = .ok b ∧ R a b := by
  cases h with
  | ok hR =>
      cases hx
      exact ⟨_, rfl, hR⟩
  | error e => cases hx

end RelOk

/-! ## Properties of results -/

/-- Whatever the computation returns has the property. -/
def OkAll (P : α → Prop) (x : Except ε α) : Prop :=
  ∀ a, x = .ok a → P a

namespace OkAll

theorem ok {P : α → Prop} {a : α} (h : P a) : OkAll P (.ok a : Except ε α) := by
  rintro b hb
  cases hb
  exact h

theorem bind {P : β → Prop} (x : Except ε α) {f : α → Except ε β} (h : ∀ a, OkAll P (f a)) :
    OkAll P (x >>= f) := by
  cases x with
  | ok a => exact h a
  | error e => rintro b hb; cases hb

theorem bind_of {P : α → Prop} {Q : β → Prop} {x : Except ε α} {f : α → Except ε β}
    (hx : OkAll P x) (h : ∀ a, P a → OkAll Q (f a)) : OkAll Q (x >>= f) := by
  cases x with
  | ok a => exact h a (hx a rfl)
  | error e => rintro b hb; cases hb

end OkAll

/-- Whenever the computation fails, the failure has the property. -/
def ErrorAll (P : ε → Prop) (x : Except ε α) : Prop :=
  ∀ e, x = .error e → P e

namespace ErrorAll

theorem ok {P : ε → Prop} (a : α) : ErrorAll P (.ok a) := by
  rintro e he
  cases he

theorem error {P : ε → Prop} {e : ε} (h : P e) : ErrorAll P (.error e : Except ε α) := by
  rintro e' he
  cases he
  exact h

theorem bind {P : ε → Prop} {x : Except ε α} {f : α → Except ε β} (hx : ErrorAll P x)
    (h : ∀ a, ErrorAll P (f a)) : ErrorAll P (x >>= f) := by
  cases x with
  | ok a => exact h a
  | error e => exact error (hx e rfl)

/-- Related computations fail in the same way. -/
theorem of_relOk {P : ε → Prop} {R : α → β → Prop} {x : Except ε α} {y : Except ε β}
    (hxy : RelOk R x y) (hy : ErrorAll P y) : ErrorAll P x := by
  cases hxy with
  | ok hR => exact ok _
  | error e => exact error (hy e rfl)

end ErrorAll

/-! ## Observations -/

variable {σ τ ι ο : Type v}

def observe (step : σ → ι → Except ε (σ × ο)) : σ → List ι → List (Except ε ο)
  | _, [] => []
  | s, i :: is =>
      match step s i with
      | .ok (t, o) => .ok o :: observe step t is
      | .error e => [.error e]

/-- The state after all inputs, with the outputs in order. -/
def trace (step : σ → ι → Except ε (σ × ο)) : σ → List ι → Except ε (σ × List ο)
  | s, [] => .ok (s, [])
  | s, i :: is =>
      step s i >>= fun x => trace step x.1 is >>= fun y => .ok (y.1, x.2 :: y.2)

theorem observe_eq_of_bisim {step : σ → ι → Except ε (σ × ο)} {step' : τ → ι → Except ε (τ × ο)}
    {R : σ → τ → Prop}
    (hstep : ∀ s t i, R s t → RelOk (fun x y => R x.1 y.1 ∧ x.2 = y.2) (step s i) (step' t i))
    {s : σ} {t : τ} (h : R s t) (is : List ι) : observe step s is = observe step' t is := by
  induction is generalizing s t with
  | nil => rfl
  | cons i is ih =>
      have hnext := hstep s t i h
      rw [observe, observe]
      -- One input: the outputs agree and the next states are related again.
      generalize step s i = left at hnext ⊢
      generalize step' t i = right at hnext ⊢
      cases hnext with
      | @ok x y hR =>
          rcases x with ⟨s', o⟩
          rcases y with ⟨t', o'⟩
          rcases hR with ⟨hrel, hout⟩
          have htail := ih hrel
          dsimp only at htail hout ⊢
          rw [htail, hout]
      | error e => rfl

/-- The same for inputs that are translated: a relation that every good input takes on to its
translation makes the observations equal. -/
theorem observe_eq_observe_map {step : σ → ι → Except ε (σ × ο)} {step' : τ → ι → Except ε (τ × ο)}
    {R : σ → τ → Prop} {f : ι → ι} {is : List ι}
    (hstep : ∀ i ∈ is, ∀ s t, R s t →
      RelOk (fun x y => R x.1 y.1 ∧ x.2 = y.2) (step s i) (step' t (f i)))
    {s : σ} {t : τ} (h : R s t) : observe step s is = observe step' t (is.map f) := by
  induction is generalizing s t with
  | nil => rfl
  | cons i is ih =>
      have hnext := hstep i List.mem_cons_self s t h
      rw [List.map_cons, observe, observe]
      generalize step s i = left at hnext ⊢
      generalize step' t (f i) = right at hnext ⊢
      cases hnext with
      | @ok x y hR =>
          rcases x with ⟨s', o⟩
          rcases y with ⟨t', o'⟩
          rcases hR with ⟨hrel, hout⟩
          have htail := ih (fun j hj => hstep j (List.mem_cons_of_mem i hj)) hrel
          dsimp only at htail hout ⊢
          rw [htail, hout]
      | error e => rfl

/-- It is enough to look at the inputs that come. -/
theorem observe_eq_of_mem {step : σ → ι → Except ε (σ × ο)} {step' : τ → ι → Except ε (τ × ο)}
    {R : σ → τ → Prop} {is : List ι}
    (hstep : ∀ i ∈ is, ∀ s t, R s t →
      RelOk (fun x y => R x.1 y.1 ∧ x.2 = y.2) (step s i) (step' t i))
    {s : σ} {t : τ} (h : R s t) : observe step s is = observe step' t is := by
  have hmap := observe_eq_observe_map (f := id) hstep h
  rwa [List.map_id] at hmap

/-- Related states stay so, with the same outputs. -/
theorem trace_of_bisim {step : σ → ι → Except ε (σ × ο)} {step' : τ → ι → Except ε (τ × ο)}
    {R : σ → τ → Prop}
    (hstep : ∀ s t i, R s t → RelOk (fun x y => R x.1 y.1 ∧ x.2 = y.2) (step s i) (step' t i))
    {s : σ} {t : τ} (h : R s t) (is : List ι) :
    RelOk (fun x y => R x.1 y.1 ∧ x.2 = y.2) (trace step s is) (trace step' t is) := by
  induction is generalizing s t with
  | nil => exact .ok ⟨h, rfl⟩
  | cons i is ih =>
      rw [trace, trace]
      refine (hstep s t i h).bind ?_
      rintro ⟨s', o⟩ ⟨t', p⟩ ⟨hrel, hout⟩
      refine (ih hrel).bind ?_
      rintro ⟨s'', os⟩ ⟨t'', ps⟩ ⟨hlast, houts⟩
      exact .ok ⟨hlast, congrArg₂ List.cons hout houts⟩

/-- Inputs that are passed over: if they return and keep the relation, and the other inputs do the
same on both sides, then leaving them out does not matter to it. -/
theorem trace_filter {step : σ → ι → Except ε (σ × ο)} {Same : σ → σ → Prop} (keep : ι → Bool)
    (hkeep : ∀ i, keep i = true → ∀ a b, Same a b →
      RelOk (fun x y => Same x.1 y.1) (step a i) (step b i))
    (hskip : ∀ i, keep i = false → ∀ a b, Same a b → ∃ a' o, step a i = .ok (a', o) ∧ Same a' b)
    {s t : σ} (h : Same s t) (is : List ι) :
    RelOk (fun x y => Same x.1 y.1) (trace step s is) (trace step t (is.filter keep)) := by
  induction is generalizing s t with
  | nil => exact .ok h
  | cons i is ih =>
      cases hi : keep i with
      | true =>
          rw [List.filter_cons_of_pos hi, trace, trace]
          refine (hkeep i hi s t h).bind ?_
          rintro ⟨s', o⟩ ⟨t', p⟩ hsame
          exact (ih hsame).bind fun _ _ hlast => .ok hlast
      | false =>
          rcases hskip i hi s t h with ⟨s', o, hs', hsame⟩
          rw [List.filter_cons_of_neg (Bool.eq_false_iff.1 hi), trace, hs']
          -- The first step is done on one side only.
          have hrest := ih hsame
          show RelOk _ (trace step s' is >>= fun y => .ok (y.1, o :: y.2)) _
          generalize trace step s' is = left at hrest ⊢
          generalize trace step t (is.filter keep) = right at hrest ⊢
          cases hrest with
          | ok hlast => exact .ok hlast
          | error e => exact .error e

/-- What a caller sees of the inputs that are kept, up to the first failure. -/
def observeOf (keep : ι → Bool) (step : σ → ι → Except ε (σ × ο)) : σ → List ι → List (Except ε ο)
  | _, [] => []
  | s, i :: is =>
      match step s i with
      | .ok (t, o) =>
          if keep i then .ok o :: observeOf keep step t is else observeOf keep step t is
      | .error e => [.error e]

theorem observeOf_eq_of_bisim {step : σ → ι → Except ε (σ × ο)}
    {step' : τ → ι → Except ε (τ × ο)} {R : σ → τ → Prop}
    (hstep : ∀ s t i, R s t → RelOk (fun x y => R x.1 y.1 ∧ x.2 = y.2) (step s i) (step' t i))
    {s : σ} {t : τ} (h : R s t) (keep : ι → Bool) (is : List ι) :
    observeOf keep step s is = observeOf keep step' t is := by
  induction is generalizing s t with
  | nil => rfl
  | cons i is ih =>
      have hnext := hstep s t i h
      rw [observeOf, observeOf]
      generalize step s i = left at hnext ⊢
      generalize step' t i = right at hnext ⊢
      cases hnext with
      | @ok x y hR =>
          rcases x with ⟨s', o⟩
          rcases y with ⟨t', o'⟩
          rcases hR with ⟨hrel, hout⟩
          have htail := ih hrel
          dsimp only at htail hout ⊢
          rw [htail, hout]
      | error e => rfl

/-- Inputs that are passed over: if they return and keep the relation, and related states give the
same for the other inputs, then these do not show whether they are there. -/
theorem observeOf_eq_observe_filter {step : σ → ι → Except ε (σ × ο)} {R : σ → σ → Prop}
    (keep : ι → Bool)
    (hkeep : ∀ i, keep i = true → ∀ s t, R s t →
      RelOk (fun x y => R x.1 y.1 ∧ x.2 = y.2) (step s i) (step t i))
    (hskip : ∀ i, keep i = false → ∀ s t, R s t → ∃ s' o, step s i = .ok (s', o) ∧ R s' t)
    {s t : σ} (h : R s t) (is : List ι) :
    observeOf keep step s is = observe step t (is.filter keep) := by
  induction is generalizing s t with
  | nil => rfl
  | cons i is ih =>
      cases hi : keep i with
      | true =>
          have hnext := hkeep i hi s t h
          rw [List.filter_cons_of_pos hi, observeOf, observe]
          generalize step s i = left at hnext ⊢
          generalize step t i = right at hnext ⊢
          cases hnext with
          | @ok x y hR =>
              rcases x with ⟨s', o⟩
              rcases y with ⟨t', o'⟩
              rcases hR with ⟨hrel, hout⟩
              have htail := ih hrel
              dsimp only at htail hout ⊢
              rw [if_pos hi, htail, hout]
          | error e => rfl
      | false =>
          rcases hskip i hi s t h with ⟨s', o, hs', hrel⟩
          have htail := ih hrel
          rw [List.filter_cons_of_neg (Bool.eq_false_iff.1 hi), observeOf, hs']
          dsimp only
          rw [if_neg (Bool.eq_false_iff.1 hi), htail]

end Lib
end Netdiag
