import Mathlib.Algebra.Order.Ring.Nat
import Mathlib.Data.Nat.ModEq
import Mathlib.Tactic.Common

/-!
# Quotient — quotients of numbers that wrap

A division in words of `w` values may see its dividend or its divisor reduced modulo `w`.  When the
quotient is still that of the numbers themselves depends on which of the two has wrapped.
-/

namespace Netdiag
namespace Lib

variable {s d w : Nat}

/-- A number that wraps loses a quotient by anything below the modulus. -/
theorem mod_div_eq_iff (hpos : 0 < d) (hle : d ≤ w) : s % w / d = s / d ↔ s < w := by
  constructor
  · intro h
    by_contra hwrap
    have hwrap := Nat.le_of_not_lt hwrap
    -- What wraps away is worth at least one divisor, so the quotient loses one.
    have hless : s % w + d ≤ s := by
      calc
        s % w + d ≤ s % w + w := Nat.add_le_add_left hle _
        _ ≤ s % w + w * (s / w) :=
          Nat.add_le_add_left (Nat.le_mul_of_pos_right w (Nat.div_pos hwrap (hpos.trans_le hle))) _
        _ = s := Nat.mod_add_div s w
    have hquot : s % w / d + 1 ≤ s / d := by
      rw [← Nat.add_div_right _ hpos]
      exact Nat.div_le_div_right hless
    exact absurd h (Nat.ne_of_lt hquot)
  · intro h
    rw [Nat.mod_eq_of_lt h]

/-- What a dividend wraps to, by the quotient, the wrapped divisor and the wrapped remainder. -/
theorem mod_eq_of_div (s d w : Nat) : s % w = (s / d * (d % w) + s % d % w) % w := by
  calc
    s % w = (s / d * d + s % d) % w := by rw [Nat.mul_comm, Nat.div_add_mod]
    _ = (s / d * (d % w) + s % d % w) % w := by
      rw [Nat.add_mod_mod, Nat.add_mod, ← Nat.mul_mod_mod, ← Nat.add_mod]

/-- If both wrap, the quotient stays if and only if the remainder wraps to less than the divisor
does, and nothing wraps when the dividend is put together again. -/
theorem mod_div_mod_eq_iff (hw : 0 < w) (hne : d % w ≠ 0) :
    s % w / (d % w) = s / d ↔
      s % d % w < d % w ∧ s / d * (d % w) + s % d % w < w := by
  have hpos : 0 < d % w := Nat.pos_of_ne_zero hne
  have hlast := mod_eq_of_div s d w
  constructor
  · intro h
    have hparts : s / d * (d % w) + s % w % (d % w) = s % w := by
      rw [← h, Nat.mul_comm]
      exact Nat.div_add_mod _ _
    -- Both remainders complete the same multiple of the divisor, and both are below `w`.
    have hbelow : s % w % (d % w) < w := (Nat.mod_le _ _).trans_lt (Nat.mod_lt s hw)
    have hcongr : s / d * (d % w) + s % w % (d % w) ≡ s / d * (d % w) + s % d % w [MOD w] := by
      rw [Nat.ModEq, ← hlast, hparts, Nat.mod_mod]
    have hrest : s % w % (d % w) = s % d % w := by
      have hcancelled := Nat.ModEq.add_left_cancel' _ hcongr
      rwa [Nat.ModEq, Nat.mod_mod, Nat.mod_eq_of_lt hbelow] at hcancelled
    rw [← hrest, hparts]
    exact ⟨Nat.mod_lt _ hpos, Nat.mod_lt s hw⟩
  · intro h
    rw [hlast, Nat.mod_eq_of_lt h.2, Nat.mul_comm, Nat.mul_add_div hpos, Nat.div_eq_of_lt h.1,
      Nat.add_zero]

/-- If the divisor wraps to nothing, only the quotient 0 stays. -/
theorem mod_div_zero_eq_iff (hpos : 0 < d) (hzero : d % w = 0) :
    s % w / (d % w) = s / d ↔ s < d := by
  rw [hzero, Nat.div_zero, eq_comm]
  exact Nat.div_eq_zero_iff_lt hpos

/-- A quotient by the wrapped divisor wraps to the quotient itself if and only if what the wrapped
divisor leaves of the dividend lies right behind a multiple of all that wraps. -/
theorem div_mod_mod_eq_iff (hne : d % w ≠ 0) (hquot : s / d < w) :
    s / (d % w) % w = s / d ↔ (s - s / d * (d % w)) % (w * (d % w)) < d % w := by
  have hpos : 0 < d % w := Nat.pos_of_ne_zero hne
  have hle : s / d * (d % w) ≤ s := by
    calc
      s / d * (d % w) ≤ s / d * d := Nat.mul_le_mul_left _ (Nat.mod_le d w)
      _ ≤ s := Nat.div_mul_le_self s d
  have hmore : s / (d % w) = (s - s / d * (d % w)) / (d % w) + s / d := by
    rw [← Nat.add_mul_div_right _ _ hpos, Nat.sub_add_cancel hle]
  -- The quotient by less is greater, and the excess has to be a multiple of `w`.
  rw [hmore, ← Nat.div_eq_zero_iff_lt hpos, Nat.mod_mul_left_div_self]
  constructor
  · intro h
    have hcongr : (s - s / d * (d % w)) / (d % w) + s / d ≡ 0 + s / d [MOD w] := by
      rw [Nat.ModEq, h, Nat.zero_add, Nat.mod_eq_of_lt hquot]
    exact Nat.ModEq.add_right_cancel' _ hcongr
  · intro h
    rw [Nat.add_mod, h, Nat.zero_add, Nat.mod_mod, Nat.mod_eq_of_lt hquot]

end Lib
end Netdiag
