import Mathlib.Algebra.Group.Action.Defs
import Mathlib.Algebra.Order.BigOperators.Group.List
import Mathlib.Algebra.Order.Ring.Nat
import Mathlib.Data.List.Induction
import Mathlib.Tactic.Common
import Netdiag.Lib.Quotient

/-!
# Meter — running statistics in 32-bit words

A meter keeps the sum, the number, the greatest and the least of the values that it is shown, each
in a word.  Greatest and least are those of the values.  Sum and number wrap, so the quotient of
the two is the mean only as long as they fit (`toNat_mean_of_iff`).
-/

namespace Netdiag
namespace Lib

/-! ## Meters -/

structure Meter where
  sum : UInt32
  count : UInt32
  max : UInt32
  min : UInt32

namespace Meter

def zero : Meter :=
  { sum := 0, count := 0, max := 0, min := 0xFFFFFFFF }

/-- What becomes of a meter that is shown one more value. -/
def note (m : Meter) (v : UInt32) : Meter :=
  { sum := m.sum + v
    count := m.count + 1
    max := if v > m.max then v else m.max
    min := if v < m.min then v else m.min }

/-- The meter that has been shown these values. -/
def of (vs : List UInt32) : Meter :=
  vs.foldl note zero

def mean (m : Meter) : UInt32 :=
  if m.count ≠ 0 then m.sum / m.count else 0

/-- A meter that has been shown nothing has the greatest word for the least value. -/
def least (m : Meter) : UInt32 :=
  if m.min = 0xFFFFFFFF then 0 else m.min

end Meter

/-- The sum of the values, which does not wrap. -/
def total (vs : List UInt32) : Nat :=
  (vs.map UInt32.toNat).sum

theorem total_concat (vs : List UInt32) (v : UInt32) : total (vs ++ [v]) = total vs + v.toNat := by
  simp [total]

namespace Meter

theorem of_append (vs ws : List UInt32) : of (vs ++ ws) = ws.foldl note (of vs) :=
  List.foldl_append

theorem of_concat (vs : List UInt32) (v : UInt32) : of (vs ++ [v]) = (of vs).note v :=
  of_append vs [v]

theorem sum_of (vs : List UInt32) : (of vs).sum = UInt32.ofNat (total vs) := by
  induction vs using List.reverseRecOn with
  | nil => rfl
  | append_singleton vs v ih =>
      rw [of_concat, total_concat, UInt32.ofNat_add, ← ih, UInt32.ofNat_toNat]
      rfl

theorem count_of (vs : List UInt32) : (of vs).count = UInt32.ofNat vs.length := by
  induction vs using List.reverseRecOn with
  | nil => rfl
  | append_singleton vs v ih =>
      rw [of_concat, List.length_append, List.length_singleton, UInt32.ofNat_add, ← ih]
      rfl

theorem toNat_max_note (m : Meter) (v : UInt32) :
    (m.note v).max.toNat = Max.max m.max.toNat v.toNat := by
  rw [note, apply_ite UInt32.toNat]
  simp only [gt_iff_lt, UInt32.lt_iff_toNat_lt]
  split_ifs with h
  · exact (Nat.max_eq_right (Nat.le_of_lt h)).symm
  · exact (Nat.max_eq_left (Nat.le_of_not_lt h)).symm

theorem toNat_min_note (m : Meter) (v : UInt32) :
    (m.note v).min.toNat = Min.min m.min.toNat v.toNat := by
  rw [note, apply_ite UInt32.toNat]
  simp only [UInt32.lt_iff_toNat_lt]
  split_ifs with h
  · exact (Nat.min_eq_right (Nat.le_of_lt h)).symm
  · exact (Nat.min_eq_left (Nat.le_of_not_lt h)).symm

/-- The greatest value, or `0` if there has been none. -/
theorem toNat_max_of (vs : List UInt32) :
    (of vs).max.toNat = (vs.map UInt32.toNat).foldl Max.max 0 := by
  induction vs using List.reverseRecOn with
  | nil => rfl
  | append_singleton vs v ih =>
      rw [of_concat, toNat_max_note, ih, List.map_append, List.foldl_append]
      rfl

/-- The least value, or the greatest word if there has been none. -/
theorem toNat_min_of (vs : List UInt32) :
    (of vs).min.toNat = (vs.map UInt32.toNat).foldl Min.min 0xFFFFFFFF := by
  induction vs using List.reverseRecOn with
  | nil => rfl
  | append_singleton vs v ih =>
      rw [of_concat, toNat_min_note, ih, List.map_append, List.foldl_append]
      rfl

theorem max?_eq {vs : List UInt32} (h : vs ≠ []) :
    (vs.map UInt32.toNat).max? = some (of vs).max.toNat := by
  cases vs with
  | nil => exact absurd rfl h
  | cons v vs =>
      rw [toNat_max_of, List.map_cons, List.max?_cons', List.foldl_cons, Nat.zero_max]

theorem min?_eq {vs : List UInt32} (h : vs ≠ []) :
    (vs.map UInt32.toNat).min? = some (of vs).min.toNat := by
  cases vs with
  | nil => exact absurd rfl h
  | cons v vs =>
      have hword : v.toNat ≤ 0xFFFFFFFF := Nat.le_of_lt_succ v.toNat_lt
      rw [toNat_min_of, List.map_cons, List.min?_cons', List.foldl_cons, Nat.min_eq_right hword]

/-! ## Means -/

theorem toNat_mean_of (vs : List UInt32) :
    (of vs).mean.toNat = total vs % 2 ^ 32 / (vs.length % 2 ^ 32) := by
  have hcount : (of vs).count.toNat = vs.length % 2 ^ 32 := by
    rw [count_of]
    exact UInt32.toNat_ofNat'
  have hsum : (of vs).sum.toNat = total vs % 2 ^ 32 := by
    rw [sum_of]
    exact UInt32.toNat_ofNat'
  rw [mean, ← hcount, ← hsum]
  split_ifs with h
  · exact UInt32.toNat_div _ _
  · rw [not_not.1 h]
    exact (Nat.div_zero _).symm

/-- Sum and number fit into words.  If the number does not, what wrapping leaves of it, times the
mean, and of the remainder has to fit; if it leaves nothing, the mean has to be 0. -/
def Fits (vs : List UInt32) : Prop :=
  if vs.length < 2 ^ 32 then total vs < 2 ^ 32
  else if vs.length % 2 ^ 32 = 0 then total vs < vs.length
  else total vs % vs.length % 2 ^ 32 < vs.length % 2 ^ 32 ∧
    total vs / vs.length * (vs.length % 2 ^ 32) + total vs % vs.length % 2 ^ 32 < 2 ^ 32

theorem toNat_mean_of_iff {vs : List UInt32} (h : vs ≠ []) :
    (of vs).mean.toNat = total vs / vs.length ↔ Fits vs := by
  have hpos : 0 < vs.length := List.length_pos_iff.2 h
  rw [toNat_mean_of, Fits]
  -- Either only the sum can wrap, or the number does as well, to 0 or to something else.
  split_ifs with hfew hzero
  · rw [Nat.mod_eq_of_lt hfew]
    exact mod_div_eq_iff hpos (Nat.le_of_lt hfew)
  · exact mod_div_zero_eq_iff hpos hzero
  · exact mod_div_mod_eq_iff (by decide) hzero

/-- The mean lies between the least and the greatest value. -/
theorem mean_between {vs : List UInt32} (h : vs ≠ []) :
    (of vs).min.toNat ≤ total vs / vs.length ∧ total vs / vs.length ≤ (of vs).max.toNat := by
  have hpos : 0 < vs.length := List.length_pos_iff.2 h
  constructor
  · rw [Nat.le_div_iff_mul_le hpos]
    have hleast := (List.min?_eq_some_iff.1 (min?_eq h)).2
    have hsum := List.card_nsmul_le_sum _ _ hleast
    rw [List.length_map, smul_eq_mul, Nat.mul_comm] at hsum
    exact hsum
  · apply Nat.div_le_of_le_mul
    have hgreatest := (List.max?_eq_some_iff.1 (max?_eq h)).2
    have hsum := List.sum_le_card_nsmul _ _ hgreatest
    rw [List.length_map, smul_eq_mul] at hsum
    exact hsum

end Meter
end Lib
end Netdiag
