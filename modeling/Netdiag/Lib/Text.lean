import Mathlib.Data.List.Basic
import Mathlib.Data.Nat.Bitwise
import Mathlib.Tactic.Common
import Netdiag.Lib.Overwrite

/-!
# Text — lines made by a format, and the arrays that hold them

A format is a list of pieces, literal texts and places for arguments.  If no argument has in it the
character that the literal behind it starts with, the line can be read in one way only
(`fill_inj`), and numbers are such arguments.

An array of characters holds a text up to the first NUL.  `terminated` is what is written of a text
if there is room for `max` characters.
-/

namespace Netdiag
namespace Lib

/-! ## Formats -/

inductive Piece
  | lit (text : List Char)
  | arg
  deriving DecidableEq, Repr

def Piece.text : Piece → List Char
  | .lit text => text
  | .arg => []

/-- The line with these arguments. -/
def fill : List Piece → List (List Char) → List Char
  | .lit text :: ps, as => text ++ fill ps as
  | .arg :: ps, a :: as => a ++ fill ps as
  | .arg :: ps, [] => fill ps []
  | [], _ => []

/-- There are as many arguments as places for them, and each ends where the literal behind it
starts. -/
def Delimits : List Piece → List (List Char) → Prop
  | .lit _ :: ps, as => Delimits ps as
  | .arg :: .lit (ch :: _) :: ps, a :: as => ch ∉ a ∧ Delimits ps as
  | [.arg], [_] => True
  | [], [] => True
  | _, _ => False

/-- Two texts with the same mark behind their first parts. -/
theorem append_cons_inj {α : Type*} {mark : α} {a b s t : List α} (ha : mark ∉ a) (hb : mark ∉ b)
    (h : a ++ mark :: s = b ++ mark :: t) : a = b ∧ s = t := by
  induction a generalizing b with
  | nil =>
      cases b with
      | nil => exact ⟨rfl, List.tail_eq_of_cons_eq h⟩
      | cons y b =>
          -- The second text starts with the mark.
          cases h
          exact absurd List.mem_cons_self hb
  | cons x a ih =>
      cases b with
      | nil =>
          cases h
          exact absurd List.mem_cons_self ha
      | cons y b =>
          rcases List.cons.inj h with ⟨rfl, hrest⟩
          rcases ih (fun hmem => ha (List.mem_cons_of_mem _ hmem))
            (fun hmem => hb (List.mem_cons_of_mem _ hmem)) hrest with ⟨rfl, htail⟩
          exact ⟨rfl, htail⟩

/-- A line can be read in one way only. -/
theorem fill_inj {ps : List Piece} {as bs : List (List Char)} (ha : Delimits ps as)
    (hb : Delimits ps bs) (h : fill ps as = fill ps bs) : as = bs := by
  fun_induction Delimits ps as generalizing bs with
  | case1 text ps as ih =>
      exact ih ha hb (List.append_cancel_left h)
  | case2 ch text ps a as ih =>
      cases bs with
      | nil => exact hb.elim
      | cons b bs =>
          rcases append_cons_inj ha.1 hb.1 h with ⟨rfl, hrest⟩
          rw [ih ha.2 hb.2 (List.append_cancel_left hrest)]
  | case3 a =>
      match bs, hb with
      | [b], _ =>
          rw [fill, fill, fill, List.append_nil, List.append_nil] at h
          rw [h]
  | case4 =>
      match bs, hb with
      | [], _ => rfl
  | case5 => exact ha.elim

/-- A line is no longer than its literals and its arguments. -/
theorem length_fill_le (ps : List Piece) (as : List (List Char)) :
    (fill ps as).length ≤ (ps.map fun p => p.text.length).sum + (as.map List.length).sum := by
  fun_induction fill ps as with
  | case1 text ps as ih =>
      have hlit : (Piece.lit text).text.length = text.length := rfl
      rw [List.length_append, List.map_cons, List.sum_cons, hlit]
      omega
  | case2 ps a as ih =>
      rw [List.length_append, List.map_cons, List.sum_cons, List.map_cons, List.sum_cons]
      omega
  | case3 ps ih =>
      rw [List.map_cons, List.sum_cons]
      omega
  | case4 as => exact Nat.zero_le _

theorem not_mem_fill {ch : Char} {ps : List Piece} {as : List (List Char)}
    (hps : ∀ p ∈ ps, ch ∉ p.text) (has : ∀ a ∈ as, ch ∉ a) : ch ∉ fill ps as := by
  fun_induction fill ps as with
  | case1 text ps as ih =>
      rw [List.mem_append, not_or]
      exact ⟨hps _ List.mem_cons_self, ih (fun p hp => hps p (List.mem_cons_of_mem _ hp)) has⟩
  | case2 ps a as ih =>
      rw [List.mem_append, not_or]
      exact ⟨has a List.mem_cons_self, ih (fun p hp => hps p (List.mem_cons_of_mem _ hp))
        fun b hb => has b (List.mem_cons_of_mem _ hb)⟩
  | case3 ps ih => exact ih (fun p hp => hps p (List.mem_cons_of_mem _ hp)) has
  | case4 as => exact List.not_mem_nil

/-! ## Numbers -/

/-- `%u`. -/
def decimal (n : Nat) : List Char :=
  Nat.toDigits 10 n

/-- `%d`. -/
def signed (i : Int) : List Char :=
  if i < 0 then '-' :: decimal i.natAbs else decimal i.natAbs

/-- `%02x` of a byte. -/
def hexByte (b : UInt8) : List Char :=
  [(b.toNat / 16).digitChar, (b.toNat % 16).digitChar]

theorem decimal_inj {n k : Nat} (h : decimal n = decimal k) : n = k := by
  rw [← Nat.ofDigitChars_ten_toDigits (n := n), ← Nat.ofDigitChars_ten_toDigits (n := k)]
  exact congrArg (Nat.ofDigitChars 10 · 0) h

theorem isDigit_of_mem_decimal {n : Nat} {ch : Char} (h : ch ∈ decimal n) : ch.isDigit :=
  Nat.isDigit_of_mem_toDigits (by decide) (by decide) h

theorem not_mem_decimal {n : Nat} {ch : Char} (h : ch.isDigit = false) : ch ∉ decimal n := by
  intro hmem
  rw [isDigit_of_mem_decimal hmem] at h
  cases h

theorem length_decimal_le {n k : Nat} (hk : 0 < k) (h : n < 10 ^ k) : (decimal n).length ≤ k :=
  (Nat.length_toDigits_le_iff (by decide) hk).2 h

theorem length_signed_le {i : Int} {k : Nat} (hk : 0 < k) (h : i.natAbs < 10 ^ k) :
    (signed i).length ≤ k + 1 := by
  have hlen := length_decimal_le hk h
  rw [signed]
  split_ifs
  · exact Nat.succ_le_succ hlen
  · omega

theorem not_mem_signed {i : Int} {ch : Char} (h : ch.isDigit = false) (hsign : ch ≠ '-') :
    ch ∉ signed i := by
  rw [signed]
  split_ifs
  · rw [List.mem_cons, not_or]
    exact ⟨hsign, not_mem_decimal h⟩
  · exact not_mem_decimal h

theorem signed_inj {i j : Int} (h : signed i = signed j) : i = j := by
  have hsign : ∀ n, '-' ∉ decimal n := fun n => not_mem_decimal (by decide)
  rw [signed, signed] at h
  by_cases hi : i < 0 <;> by_cases hj : j < 0
  · rw [if_pos hi, if_pos hj] at h
    have habs := decimal_inj (List.tail_eq_of_cons_eq h)
    omega
  · rw [if_pos hi, if_neg hj] at h
    exact absurd (h ▸ List.mem_cons_self) (hsign j.natAbs)
  · rw [if_neg hi, if_pos hj] at h
    exact absurd (h ▸ List.mem_cons_self) (hsign i.natAbs)
  · rw [if_neg hi, if_neg hj] at h
    have habs := decimal_inj h
    omega

theorem hexByte_inj {b c : UInt8} (h : hexByte b = hexByte c) : b = c := by
  have hdigit : ∀ n < 16, ∀ k < 16, n.digitChar = k.digitChar → n = k := by decide
  rcases List.cons.inj h with ⟨hhigh, hlow⟩
  have hdiv := hdigit _ (Nat.div_lt_of_lt_mul b.toNat_lt) _ (Nat.div_lt_of_lt_mul c.toNat_lt) hhigh
  have hmod := hdigit _ (Nat.mod_lt _ (by decide)) _ (Nat.mod_lt _ (by decide))
    (List.cons.inj hlow).1
  apply UInt8.toNat_inj.1
  omega

theorem not_mem_hexByte {b : UInt8} {ch : Char} (h : ∀ n < 16, n.digitChar ≠ ch) :
    ch ∉ hexByte b := by
  rw [hexByte, List.mem_cons, List.mem_singleton, not_or]
  exact ⟨(h _ (Nat.div_lt_of_lt_mul b.toNat_lt)).symm, (h _ (Nat.mod_lt _ (by decide))).symm⟩

/-! ## Arrays of characters -/

def nul : Char := Char.ofNat 0

/-- The text that an array holds. -/
def textOf (buf : List Char) : List Char :=
  buf.takeWhile (· ≠ nul)

/-- As much of a text as fits into `max` characters, with a NUL behind it. -/
def terminated (max : Nat) (text : List Char) : List Char :=
  text.take (max - 1) ++ [nul]

theorem length_terminated_le {max : Nat} (hmax : 0 < max) (text : List Char) :
    (terminated max text).length ≤ max := by
  rw [terminated, List.length_append, List.length_take, List.length_singleton]
  omega

/-- What an array holds after a text has been written to its front. -/
theorem textOf_overwrite {buf text : List Char} {max : Nat} (hnul : nul ∉ text) :
    textOf (overwrite buf 0 (terminated max text)) = text.take (max - 1) := by
  have hall : ∀ ch ∈ text.take (max - 1), decide (ch ≠ nul) = true := by
    intro ch hch
    exact decide_eq_true fun heq => hnul (heq ▸ List.mem_of_mem_take hch)
  rw [textOf, overwrite, List.take_zero, List.nil_append, terminated, List.append_assoc,
    List.takeWhile_append_of_pos hall, List.singleton_append,
    List.takeWhile_cons_of_neg (by simp), List.append_nil]

end Lib
end Netdiag
