import Mathlib.Data.Nat.Bitwise
import Mathlib.Tactic.Common

/-!
# Words — bytes and the words they spell

Sixteen- and thirty-two-bit words from their bytes and back, in both byte orders, and rounding a
length up to a multiple of four.  A word read from the bytes it was written to is the word.
-/

namespace Netdiag
namespace Lib

/-! ## Reading -/

def be16 (b₀ b₁ : UInt8) : UInt16 :=
  (b₀.toUInt16 <<< 8) ||| b₁.toUInt16

def le16 (b₀ b₁ : UInt8) : UInt16 :=
  b₀.toUInt16 ||| (b₁.toUInt16 <<< 8)

def be32 (b₀ b₁ b₂ b₃ : UInt8) : UInt32 :=
  (b₀.toUInt32 <<< 24) ||| (b₁.toUInt32 <<< 16) ||| (b₂.toUInt32 <<< 8) ||| b₃.toUInt32

def le32 (b₀ b₁ b₂ b₃ : UInt8) : UInt32 :=
  b₀.toUInt32 ||| (b₁.toUInt32 <<< 8) ||| (b₂.toUInt32 <<< 16) ||| (b₃.toUInt32 <<< 24)

/-! ## Writing -/

def wr16Be (v : UInt16) : List UInt8 :=
  [(v >>> 8).toUInt8, (v &&& 0xFF).toUInt8]

def wr16Le (v : UInt16) : List UInt8 :=
  [(v &&& 0xFF).toUInt8, (v >>> 8).toUInt8]

def wr32Be (v : UInt32) : List UInt8 :=
  [((v >>> 24) &&& 0xFF).toUInt8, ((v >>> 16) &&& 0xFF).toUInt8,
    ((v >>> 8) &&& 0xFF).toUInt8, (v &&& 0xFF).toUInt8]

def wr32Le (v : UInt32) : List UInt8 :=
  [(v &&& 0xFF).toUInt8, ((v >>> 8) &&& 0xFF).toUInt8,
    ((v >>> 16) &&& 0xFF).toUInt8, ((v >>> 24) &&& 0xFF).toUInt8]

@[simp] theorem length_wr16Be (v : UInt16) : (wr16Be v).length = 2 := rfl

@[simp] theorem length_wr16Le (v : UInt16) : (wr16Le v).length = 2 := rfl

@[simp] theorem length_wr32Be (v : UInt32) : (wr32Be v).length = 4 := rfl

@[simp] theorem length_wr32Le (v : UInt32) : (wr32Le v).length = 4 := rfl

/-! ## Words as sums of bytes -/

private theorem or_low (k high : Nat) {low : Nat} (hlow : low < 2 ^ k) :
    2 ^ k * high ||| low = 2 ^ k * high + low :=
  (Nat.two_pow_add_eq_or_of_lt hlow high).symm

private theorem shiftLeft_byte (b k w : Nat) (hb : b < 2 ^ 8) (hk : k + 8 ≤ w) :
    b <<< k % 2 ^ w = 2 ^ k * b := by
  rw [Nat.shiftLeft_eq, Nat.mul_comm, Nat.mod_eq_of_lt]
  calc
    2 ^ k * b < 2 ^ k * 2 ^ 8 := Nat.mul_lt_mul_of_pos_left hb (Nat.two_pow_pos k)
    _ = 2 ^ (k + 8) := (Nat.pow_add 2 k 8).symm
    _ ≤ 2 ^ w := Nat.pow_le_pow_right (by decide) hk

theorem toNat_be16 (b₀ b₁ : UInt8) :
    (be16 b₀ b₁).toNat = 2 ^ 8 * b₀.toNat + b₁.toNat := by
  have h₁ : b₁.toNat < 2 ^ 8 := b₁.toNat_lt
  simp only [be16, UInt16.toNat_or, UInt16.toNat_shiftLeft, UInt8.toNat_toUInt16]
  rw [show (8 : UInt16).toNat % 16 = 8 from rfl,
    shiftLeft_byte b₀.toNat 8 16 b₀.toNat_lt (by omega), or_low 8 _ h₁]

theorem toNat_be32 (b₀ b₁ b₂ b₃ : UInt8) :
    (be32 b₀ b₁ b₂ b₃).toNat =
      2 ^ 24 * b₀.toNat + (2 ^ 16 * b₁.toNat + (2 ^ 8 * b₂.toNat + b₃.toNat)) := by
  have h₁ : b₁.toNat < 2 ^ 8 := b₁.toNat_lt
  have h₂ : b₂.toNat < 2 ^ 8 := b₂.toNat_lt
  have h₃ : b₃.toNat < 2 ^ 8 := b₃.toNat_lt
  simp only [be32, UInt32.toNat_or, UInt32.toNat_shiftLeft, UInt8.toNat_toUInt32]
  rw [show (24 : UInt32).toNat % 32 = 24 from rfl, show (16 : UInt32).toNat % 32 = 16 from rfl,
    show (8 : UInt32).toNat % 32 = 8 from rfl,
    shiftLeft_byte b₀.toNat 24 32 b₀.toNat_lt (by omega),
    shiftLeft_byte b₁.toNat 16 32 h₁ (by omega), shiftLeft_byte b₂.toNat 8 32 h₂ (by omega),
    Nat.or_assoc, Nat.or_assoc, or_low 8 _ h₃, or_low 16 _ (by omega), or_low 24 _ (by omega)]

theorem le16_eq_be16 (b₀ b₁ : UInt8) : le16 b₀ b₁ = be16 b₁ b₀ :=
  UInt16.or_comm _ _

/-- A word determines its bytes. -/
theorem be32_inj {a b c d a' b' c' d' : UInt8} (h : be32 a b c d = be32 a' b' c' d') :
    a = a' ∧ b = b' ∧ c = c' ∧ d = d' := by
  have hnat := congrArg UInt32.toNat h
  rw [toNat_be32, toNat_be32] at hnat
  have ha := a.toNat_lt
  have hb := b.toNat_lt
  have hc := c.toNat_lt
  have hd := d.toNat_lt
  have ha' := a'.toNat_lt
  have hb' := b'.toNat_lt
  have hc' := c'.toNat_lt
  have hd' := d'.toNat_lt
  refine ⟨UInt8.toNat_inj.1 ?_, UInt8.toNat_inj.1 ?_, UInt8.toNat_inj.1 ?_, UInt8.toNat_inj.1 ?_⟩
    <;> omega

theorem le32_eq_be32 (b₀ b₁ b₂ b₃ : UInt8) : le32 b₀ b₁ b₂ b₃ = be32 b₃ b₂ b₁ b₀ := by
  rw [le32, be32, UInt32.or_comm b₀.toUInt32, UInt32.or_comm _ (b₂.toUInt32 <<< 16),
    UInt32.or_comm _ (b₃.toUInt32 <<< 24), UInt32.or_assoc, UInt32.or_assoc]

/-! ## Reading back what was written -/

private theorem and_255 (n : Nat) : n &&& 255 = n % 256 :=
  Nat.and_two_pow_sub_one_eq_mod n 8

theorem be16_wr16Be (v : UInt16) : be16 (v >>> 8).toUInt8 (v &&& 0xFF).toUInt8 = v := by
  apply UInt16.toNat_inj.1
  have hv : v.toNat < 2 ^ 16 := v.toNat_lt
  rw [toNat_be16]
  simp only [UInt16.toNat_toUInt8, UInt16.toNat_shiftRight, UInt16.toNat_and,
    Nat.shiftRight_eq_div_pow, UInt16.reduceToNat, and_255, Nat.reduceMod]
  omega

theorem be32_wr32Be (v : UInt32) :
    be32 ((v >>> 24) &&& 0xFF).toUInt8 ((v >>> 16) &&& 0xFF).toUInt8
      ((v >>> 8) &&& 0xFF).toUInt8 (v &&& 0xFF).toUInt8 = v := by
  apply UInt32.toNat_inj.1
  have hv : v.toNat < 2 ^ 32 := v.toNat_lt
  rw [toNat_be32]
  simp only [UInt32.toNat_toUInt8, UInt32.toNat_shiftRight, UInt32.toNat_and,
    Nat.shiftRight_eq_div_pow, UInt32.reduceToNat, and_255, Nat.reduceMod]
  omega

theorem le16_wr16Le (v : UInt16) : le16 (v &&& 0xFF).toUInt8 (v >>> 8).toUInt8 = v := by
  rw [le16_eq_be16, be16_wr16Be]

theorem le32_wr32Le (v : UInt32) :
    le32 (v &&& 0xFF).toUInt8 ((v >>> 8) &&& 0xFF).toUInt8
      ((v >>> 16) &&& 0xFF).toUInt8 ((v >>> 24) &&& 0xFF).toUInt8 = v := by
  rw [le32_eq_be32, be32_wr32Be]

/-! ## Rounding up -/

/-- The least multiple of four that is not below `n`. -/
def roundUp4 (n : Nat) : Nat :=
  (n + 3) / 4 * 4

theorem le_roundUp4 (n : Nat) : n ≤ roundUp4 n := by
  rw [roundUp4]
  omega

theorem roundUp4_le (n : Nat) : roundUp4 n ≤ n + 3 := by
  rw [roundUp4]
  omega

/-- Clearing the two low bits of a 32-bit word. -/
theorem toNat_and_not_3 (v : UInt32) : (v &&& ~~~3).toNat = v.toNat / 4 * 4 := by
  have hmask : (~~~3 : UInt32).toNat = 2 ^ 2 * (2 ^ 30 - 1) := by decide
  rw [UInt32.toNat_and, hmask]
  apply Nat.eq_of_testBit_eq
  intro i
  rw [Nat.testBit_and, Nat.testBit_two_pow_mul, Nat.testBit_two_pow_sub_one,
    show v.toNat / 4 * 4 = 2 ^ 2 * (v.toNat / 2 ^ 2) by omega, Nat.testBit_two_pow_mul,
    Nat.testBit_div_two_pow]
  by_cases hlow : 2 ≤ i
  · by_cases hhigh : i < 32
    · have hin : i - 2 < 30 := by omega
      simp [hlow, hin, Nat.sub_add_cancel hlow]
    · have hout : v.toNat.testBit i = false :=
        Nat.testBit_lt_two_pow
          (lt_of_lt_of_le v.toNat_lt (Nat.pow_le_pow_right (by decide) (by omega)))
      simp [hlow, hout, Nat.sub_add_cancel hlow]
  · simp [hlow]

end Lib
end Netdiag
