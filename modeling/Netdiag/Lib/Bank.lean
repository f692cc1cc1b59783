import Mathlib.Algebra.BigOperators.Fin
import Mathlib.Data.Nat.ModEq

/-!
# Bank — a row of counters that wrap

A bank is a vector of 32-bit counters.  Adding to one of them leaves the others alone
(`get_bump`), and adds as much to the sum of all of them, up to a multiple of `2 ^ 32`
(`total_bump`).
-/

namespace Netdiag
namespace Lib

abbrev Bank (n : Nat) : Type := Vector UInt32 n

namespace Bank

variable {n : Nat}

def zero (n : Nat) : Bank n :=
  Vector.replicate n 0

/-- Add to one of the counters. -/
def bump (b : Bank n) (i : Fin n) (x : UInt32) : Bank n :=
  b.set i (b.get i + x)

/-- The sum of the counters, which does not wrap. -/
def total (b : Bank n) : Nat :=
  ∑ i, (b.get i).toNat

theorem get_bump (b : Bank n) (i j : Fin n) (x : UInt32) :
    (b.bump i x).get j = if i = j then b.get i + x else b.get j := by
  have hset := @Vector.getElem_set UInt32 n b i.val (b.get i + x) i.isLt j.val j.isLt
  simp only [Fin.val_inj] at hset
  exact hset

theorem get_zero (i : Fin n) : (zero n).get i = 0 :=
  Vector.getElem_replicate i.isLt

theorem total_zero : (zero n).total = 0 := by
  simp only [total, get_zero]
  exact Finset.sum_const_zero

/-- The other counters keep their sum. -/
theorem total_bump_add (b : Bank n) (i : Fin n) (x : UInt32) :
    (b.bump i x).total + (b.get i).toNat = b.total + (b.get i + x).toNat := by
  have hothers : ∀ j ∈ Finset.univ.erase i, ((b.bump i x).get j).toNat = (b.get j).toNat := by
    intro j hj
    rw [get_bump, if_neg (Finset.ne_of_mem_erase hj).symm]
  have hself : ((b.bump i x).get i).toNat = (b.get i + x).toNat := by
    rw [get_bump, if_pos rfl]
  have hold : (b.get i).toNat + ∑ j ∈ Finset.univ.erase i, (b.get j).toNat = b.total :=
    Finset.add_sum_erase _ (fun j => (b.get j).toNat) (Finset.mem_univ i)
  have hnew : (b.get i + x).toNat + ∑ j ∈ Finset.univ.erase i, (b.get j).toNat =
      (b.bump i x).total := by
    rw [total, ← Finset.add_sum_erase _ _ (Finset.mem_univ i), hself, Finset.sum_congr rfl hothers]
  omega

theorem toNat_add_modEq (a x : UInt32) : (a + x).toNat ≡ a.toNat + x.toNat [MOD 2 ^ 32] := by
  rw [UInt32.toNat_add]
  exact Nat.mod_modEq _ _

theorem total_bump (b : Bank n) (i : Fin n) (x : UInt32) :
    (b.bump i x).total ≡ b.total + x.toNat [MOD 2 ^ 32] := by
  apply Nat.ModEq.add_right_cancel' (b.get i).toNat
  rw [total_bump_add, Nat.add_assoc, Nat.add_comm x.toNat]
  exact (toNat_add_modEq (b.get i) x).add_left b.total

theorem total_bump_one (b : Bank n) (i : Fin n) :
    (b.bump i 1).total ≡ b.total + 1 [MOD 2 ^ 32] := by
  have h := total_bump b i 1
  rwa [UInt32.toNat_one] at h

end Bank
end Lib
end Netdiag
