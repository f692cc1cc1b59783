import Mathlib.Data.Finset.Card
import Mathlib.Data.Finset.Prod
import Mathlib.Data.Nat.Count

/-!
# Pairs — related entries of a list

`pairs R xs` are the pairs of places of a list whose entries are related, the first place in front
of the second.  An entry at the end adds as many of them as there are entries related to it
(`card_pairs_concat`), so a count that goes along with a list counts the pairs.
-/

namespace Netdiag
namespace Lib

variable {α : Type*} {R : α → α → Prop}

/-- The entries at these places are related. -/
def RelatedAt (R : α → α → Prop) (xs : List α) (i j : Nat) : Prop :=
  ∃ a ∈ xs[i]?, ∃ b ∈ xs[j]?, R a b

theorem relatedAt_append {xs : List α} {i j : Nat} (hi : i < xs.length) (hj : j < xs.length)
    (ys : List α) : RelatedAt R (xs ++ ys) i j ↔ RelatedAt R xs i j := by
  rw [RelatedAt, RelatedAt, List.getElem?_append_left hi, List.getElem?_append_left hj]

theorem relatedAt_concat {xs : List α} {i : Nat} (hi : i < xs.length) (a : α) :
    RelatedAt R (xs ++ [a]) i xs.length ↔ ∃ b ∈ xs[i]?, R b a := by
  rw [RelatedAt, List.getElem?_append_left hi, List.getElem?_concat_length]
  simp only [Option.mem_def, Option.some.injEq, exists_eq_left']

variable [DecidableRel R]

instance (xs : List α) (i j : Nat) : Decidable (RelatedAt R xs i j) :=
  inferInstanceAs (Decidable (∃ a ∈ xs[i]?, ∃ b ∈ xs[j]?, R a b))

def pairs (R : α → α → Prop) [DecidableRel R] (xs : List α) : Finset (Nat × Nat) :=
  (Finset.range xs.length ×ˢ Finset.range xs.length).filter fun p =>
    p.1 < p.2 ∧ RelatedAt R xs p.1 p.2

theorem lt_length_of_mem_pairs {xs : List α} {i j : Nat} (h : (i, j) ∈ pairs R xs) :
    j < xs.length :=
  Finset.mem_range.1 (Finset.mem_product.1 (Finset.mem_filter.1 h).1).2

/-- Counting places is counting entries. -/
theorem card_filter_getElem? {p : α → Prop} [DecidablePred p] (xs : List α) :
    ((Finset.range xs.length).filter fun i => ∃ b ∈ xs[i]?, p b).card =
      xs.countP fun b => p b := by
  rw [← Nat.count_eq_card_filter_range]
  -- By induction from the end: the last place holds the last entry.
  induction xs using List.reverseRecOn with
  | nil => rfl
  | append_singleton xs a ih =>
      rw [List.length_append, List.length_singleton, Nat.count_succ, List.countP_append, ← ih,
        List.countP_singleton]
      have hlast : (∃ b ∈ (xs ++ [a])[xs.length]?, p b) ↔ p a := by
        simp
      have hold : Nat.count (fun i => ∃ b ∈ (xs ++ [a])[i]?, p b) xs.length =
          Nat.count (fun i => ∃ b ∈ xs[i]?, p b) xs.length := by
        apply List.countP_congr
        intro i hi
        simp only [List.getElem?_append_left (List.mem_range.1 hi)]
      rw [hold]
      simp only [hlast, decide_eq_true_eq]

/-- The new entry is in a pair exactly if it is related to one before it. -/
theorem exists_mem_pairs_concat {xs : List α} {a : α} :
    (∃ i, (i, xs.length) ∈ pairs R (xs ++ [a])) ↔ ∃ b ∈ xs, R b a := by
  constructor
  · rintro ⟨i, hi⟩
    rcases Finset.mem_filter.1 hi with ⟨_, hlt, hrel⟩
    rcases (relatedAt_concat hlt a).1 hrel with ⟨b, hb, hba⟩
    exact ⟨b, List.mem_of_getElem? hb, hba⟩
  · rintro ⟨b, hb, hba⟩
    rcases List.getElem?_of_mem hb with ⟨i, hi⟩
    have hlt : i < xs.length := (List.getElem?_eq_some_iff.1 hi).1
    refine ⟨i, Finset.mem_filter.2 ⟨?_, hlt, (relatedAt_concat hlt a).2 ⟨b, hi, hba⟩⟩⟩
    rw [Finset.mem_product, Finset.mem_range, Finset.mem_range, List.length_append]
    exact ⟨Nat.lt_succ_of_lt hlt, Nat.lt_succ_self _⟩

/-- The new pairs are those of the new entry and one before it. -/
theorem pairs_concat (xs : List α) (a : α) :
    pairs R (xs ++ [a]) = pairs R xs ∪
      ((Finset.range xs.length).filter fun i => ∃ b ∈ xs[i]?, R b a).image
        fun i => (i, xs.length) := by
  ext ⟨i, j⟩
  simp only [pairs, Finset.mem_union, Finset.mem_image, Finset.mem_filter, Finset.mem_product,
    Finset.mem_range, List.length_append, List.length_singleton, Prod.mk.injEq]
  constructor
  · rintro ⟨⟨hi, hj⟩, hlt, hrel⟩
    have hi' : i < xs.length := by omega
    by_cases hlast : j = xs.length
    · subst hlast
      exact .inr ⟨i, ⟨hi', (relatedAt_concat hi' a).1 hrel⟩, rfl, rfl⟩
    · have hj' : j < xs.length := by omega
      exact .inl ⟨⟨hi', hj'⟩, hlt, (relatedAt_append hi' hj' [a]).1 hrel⟩
  · rintro (⟨⟨hi, hj⟩, hlt, hrel⟩ | ⟨k, ⟨hk, hrel⟩, rfl, rfl⟩)
    · exact ⟨⟨by omega, by omega⟩, hlt, (relatedAt_append hi hj [a]).2 hrel⟩
    · exact ⟨⟨by omega, by omega⟩, hk, (relatedAt_concat hk a).2 hrel⟩

theorem card_pairs_concat (xs : List α) (a : α) :
    (pairs R (xs ++ [a])).card = (pairs R xs).card + xs.countP fun b => R b a := by
  rw [pairs_concat, Finset.card_union_of_disjoint, Finset.card_image_of_injective,
    card_filter_getElem?]
  · intro i k h
    exact congrArg Prod.fst h
  · -- A pair of the old entries does not have the new place.
    apply Finset.disjoint_left.2
    intro p hold hnew
    rcases Finset.mem_image.1 hnew with ⟨i, _, rfl⟩
    exact absurd (lt_length_of_mem_pairs hold) (Nat.lt_irrefl _)

end Lib
end Netdiag
