import Netdiag.Lib.Buffer

/-!
# OneOff — a single difference

Two lists that agree but for one element.  Buffers whose elements do so still do when the same is
done to both, until the element is taken out of each: from there on they are the same buffer.  So
it is for systems: if each input keeps a difference, or shows it in its output and leaves the same
state, then what callers see differs in one output at most (`observe_oneOff`), and this is all that
comes of changing one input (`observe_oneOff_of_input`).
-/

namespace Netdiag
namespace Lib

universe u v

/-- The lists are the same, but for one place, where their elements are related by `S`. -/
inductive OneOff {α : Type u} (S : α → α → Prop) : List α → List α → Prop
  | refl (xs : List α) : OneOff S xs xs
  | here {x y : α} (xs : List α) : S x y → OneOff S (x :: xs) (y :: xs)
  | there (x : α) {xs ys : List α} : OneOff S xs ys → OneOff S (x :: xs) (x :: ys)

namespace OneOff

variable {α β : Type u} {S : α → α → Prop} {T : β → β → Prop} {xs ys : List α}

theorem length_eq (h : OneOff S xs ys) : xs.length = ys.length := by
  induction h with
  | refl xs => rfl
  | here xs hS => rfl
  | there x _ ih => exact congrArg (· + 1) ih

theorem prepend (h : OneOff S xs ys) (zs : List α) : OneOff S (zs ++ xs) (zs ++ ys) := by
  induction zs with
  | nil => exact h
  | cons z zs ih => exact .there z ih

theorem append (h : OneOff S xs ys) (zs : List α) : OneOff S (xs ++ zs) (ys ++ zs) := by
  induction h with
  | refl xs => exact .refl _
  | here xs hS => exact .here _ hS
  | there x _ ih => exact .there x ih

theorem map (h : OneOff S xs ys) {f : α → β} (hf : ∀ x y, S x y → T (f x) (f y)) :
    OneOff T (xs.map f) (ys.map f) := by
  induction h with
  | refl xs => exact .refl _
  | here xs hS => exact .here _ (hf _ _ hS)
  | there x _ ih => exact .there _ ih

/-- What does not tell the elements that differ apart does not tell the lists apart. -/
theorem map_eq (h : OneOff S xs ys) {f : α → β} (hf : ∀ x y, S x y → f x = f y) :
    xs.map f = ys.map f := by
  induction h with
  | refl xs => rfl
  | here xs hS => rw [List.map_cons, List.map_cons, hf _ _ hS]
  | there x _ ih => rw [List.map_cons, List.map_cons, ih]

/-- A selection that keeps both of the elements that differ, or neither of them. -/
theorem filter (h : OneOff S xs ys) {p : α → Bool} (hp : ∀ x y, S x y → p x = p y) :
    OneOff S (xs.filter p) (ys.filter p) := by
  induction h with
  | refl xs => exact .refl _
  | @here x y xs hS =>
      have hsame := hp x y hS
      cases hx : p x with
      | true =>
          rw [List.filter_cons_of_pos hx, List.filter_cons_of_pos (hsame.symm.trans hx)]
          exact .here _ hS
      | false =>
          rw [List.filter_cons_of_neg (Bool.eq_false_iff.1 hx),
            List.filter_cons_of_neg (Bool.eq_false_iff.1 (hsame.symm.trans hx))]
          exact .refl _
  | @there x xs ys _ ih =>
      cases hx : p x with
      | true =>
          rw [List.filter_cons_of_pos hx, List.filter_cons_of_pos hx]
          exact .there x ih
      | false =>
          rw [List.filter_cons_of_neg (Bool.eq_false_iff.1 hx),
            List.filter_cons_of_neg (Bool.eq_false_iff.1 hx)]
          exact ih

end OneOff

/-! ## Buffers -/

namespace Buffer

variable {α : Type u} {S : α → α → Prop}

/-- Buffers with as many places, whose elements differ in one place at most. -/
structure Differs (S : α → α → Prop) (a b : Buffer α) : Prop where
  places : a.places = b.places
  items : OneOff S a.items b.items

theorem Differs.refl (b : Buffer α) : b.Differs S b :=
  ⟨rfl, .refl _⟩

theorem Differs.push {a b : Buffer α} (h : a.Differs S b) (x : α) :
    (a.push x).Differs S (b.push x) := by
  rw [Buffer.push, Buffer.push, h.items.length_eq, h.places]
  split_ifs
  · exact ⟨rfl, h.items.append [x]⟩
  · exact h

theorem Differs.pushAll {a b : Buffer α} (h : a.Differs S b) (xs : List α) :
    (a.pushAll xs).Differs S (b.pushAll xs) := by
  induction xs generalizing a b with
  | nil => exact h
  | cons x xs ih => exact ih (h.push x)

theorem differs_push (b : Buffer α) {x y : α} (h : S x y) : (b.push x).Differs S (b.push y) := by
  rw [Buffer.push, Buffer.push]
  split_ifs
  · exact ⟨rfl, (OneOff.here [] h).prepend b.items⟩
  · exact .refl b

/-- Of what is put into a buffer one element is another. -/
theorem differs_pushAll {xs ys : List α} (h : OneOff S xs ys) (b : Buffer α) :
    (b.pushAll xs).Differs S (b.pushAll ys) := by
  induction h generalizing b with
  | refl xs => exact .refl _
  | here xs hS => exact (b.differs_push hS).pushAll xs
  | there x _ ih => exact ih (b.push x)

theorem Differs.clear {a b : Buffer α} (h : a.Differs S b) : a.clear.Differs S b.clear :=
  ⟨h.places, .refl []⟩

/-- The front elements are the same, or they are those that differ. -/
theorem Differs.pop {a b : Buffer α} (h : a.Differs S b) (x : α) :
    ((a.pop x).2.1.Differs S (b.pop x).2.1 ∧ (a.pop x).1 = (b.pop x).1 ∧
        (a.pop x).2.2 = (b.pop x).2.2) ∨
      ((a.pop x).2.1 = (b.pop x).2.1 ∧ (a.pop x).1 = 1 ∧ (b.pop x).1 = 1 ∧
        S (a.pop x).2.2 (b.pop x).2.2) := by
  rcases a with ⟨places, as⟩
  rcases b with ⟨_, bs⟩
  rcases h with ⟨hplaces, hitems⟩
  dsimp only at hplaces hitems
  subst hplaces
  cases hitems with
  | refl xs => exact .inl ⟨.refl _, rfl, rfl⟩
  | here xs hS => exact .inr ⟨rfl, rfl, rfl, hS⟩
  | there y hrest => exact .inl ⟨⟨rfl, hrest⟩, rfl, rfl⟩

end Buffer

/-! ## Systems -/

section Systems

variable {ε : Type u} {σ ι ο : Type v} {step : σ → ι → Except ε (σ × ο)} {R : σ → σ → Prop}
  {S : ο → ο → Prop}

/-- The difference is still there and does not show, or it shows and is gone. -/
def KeepsOrShows (R : σ → σ → Prop) (S : ο → ο → Prop) (x y : σ × ο) : Prop :=
  R x.1 y.1 ∧ x.2 = y.2 ∨ x.1 = y.1 ∧ S x.2 y.2

theorem observe_oneOff
    (hstep : ∀ s t i, R s t → RelOk (KeepsOrShows R S) (step s i) (step t i)) {s t : σ}
    (h : R s t) (is : List ι) :
    OneOff (RelOk S) (observe step s is) (observe step t is) := by
  induction is generalizing s t with
  | nil => exact .refl _
  | cons i is ih =>
      have hnext := hstep s t i h
      rw [observe, observe]
      generalize step s i = left at hnext ⊢
      generalize step t i = right at hnext ⊢
      cases hnext with
      | @ok x y hxy =>
          rcases x with ⟨s', o⟩
          rcases y with ⟨t', p⟩
          rcases hxy with ⟨hrel, hout⟩ | ⟨hsame, hshow⟩
          · dsimp only at hrel hout ⊢
            rw [hout]
            exact .there _ (ih hrel)
          · -- From here on the states are the same.
            dsimp only at hsame hshow ⊢
            rw [hsame]
            exact .here _ (.ok hshow)
      | error e => exact .refl _

/-- One of the inputs is another, which gives the same output and makes a difference. -/
theorem observe_oneOff_of_input
    (hstep : ∀ s t k, R s t → RelOk (KeepsOrShows R S) (step s k) (step t k)) {i j : ι}
    (hinput : ∀ s, RelOk (fun x y => R x.1 y.1 ∧ x.2 = y.2) (step s i) (step s j))
    (s : σ) (before after : List ι) :
    OneOff (RelOk S) (observe step s (before ++ i :: after))
      (observe step s (before ++ j :: after)) := by
  induction before generalizing s with
  | nil =>
      have hfirst := hinput s
      rw [List.nil_append, List.nil_append, observe, observe]
      generalize step s i = left at hfirst ⊢
      generalize step s j = right at hfirst ⊢
      cases hfirst with
      | @ok x y hxy =>
          rcases x with ⟨s', o⟩
          rcases y with ⟨t', p⟩
          rcases hxy with ⟨hrel, hout⟩
          dsimp only at hrel hout ⊢
          rw [hout]
          exact .there _ (observe_oneOff hstep hrel after)
      | error e => exact .refl _
  | cons k before ih =>
      rw [List.cons_append, List.cons_append, observe, observe]
      cases step s k with
      | ok x => exact .there _ (ih x.1)
      | error e => exact .refl _

end Systems

end Lib
end Netdiag
