import Mathlib.Data.List.Basic
import Mathlib.Tactic.Common
import Netdiag.Lib.Words

/-!
# Machine — the buffers and the `size_t` of the C code

A buffer is the list of its bytes.  Reading a byte at or past its end is a fault, so a parser
which returns has read nothing outside the buffer.  Sums of `size_t` values wrap at the width
that the platform gives the type.

`At D i xs` says that the bytes `xs` stand in the buffer `D` from index `i` on; it turns reads by
index into values of the slice that a parser was handed.
-/

namespace Netdiag

open Lib

/-! ## Faults and platforms -/

inductive Fault where
  /-- A byte at an index outside the buffer was read. -/
  | outOfBounds (index : Nat)
  /-- An array of a context was accessed at an index that it does not have. -/
  | noSlot (index : Int)
  /-- A loop made more turns than the buffer has positions for it. -/
  | stuck
  deriving DecidableEq, Repr

/-- The data models the library is built for: OpenWrt targets and 64-bit hosts. -/
inductive Platform where
  | ilp32
  | lp64
  deriving DecidableEq, Repr

namespace Platform

/-- The values of `size_t` are the numbers below this one. -/
def sizeMod : Platform → Nat
  | .ilp32 => 2 ^ 32
  | .lp64 => 2 ^ 64

/-- The sum of two `size_t` values. -/
def add (p : Platform) (a b : Nat) : Nat :=
  (a + b) % p.sizeMod

theorem add_of_lt {p : Platform} {a b : Nat} (h : a + b < p.sizeMod) : p.add a b = a + b :=
  Nat.mod_eq_of_lt h

theorem le_sizeMod (p : Platform) : 2 ^ 32 ≤ p.sizeMod := by
  cases p <;> decide

end Platform

/-! ## Reads -/

def rd (D : List UInt8) (i : Nat) : Except Fault UInt8 :=
  match D[i]? with
  | some b => .ok b
  | none => .error (.outOfBounds i)

def rd16Be (D : List UInt8) (i : Nat) : Except Fault UInt16 := do
  let b₀ ← rd D i
  let b₁ ← rd D (i + 1)
  return be16 b₀ b₁

def rd16Le (D : List UInt8) (i : Nat) : Except Fault UInt16 := do
  let b₀ ← rd D i
  let b₁ ← rd D (i + 1)
  return le16 b₀ b₁

def rd32Be (D : List UInt8) (i : Nat) : Except Fault UInt32 := do
  let b₀ ← rd D i
  let b₁ ← rd D (i + 1)
  let b₂ ← rd D (i + 2)
  let b₃ ← rd D (i + 3)
  return be32 b₀ b₁ b₂ b₃

def rd32Le (D : List UInt8) (i : Nat) : Except Fault UInt32 := do
  let b₀ ← rd D i
  let b₁ ← rd D (i + 1)
  let b₂ ← rd D (i + 2)
  let b₃ ← rd D (i + 3)
  return le32 b₀ b₁ b₂ b₃

/-- The first `n` bytes of a list, zeros where it is shorter. -/
def bytesOf (n : Nat) (xs : List UInt8) : Vector UInt8 n :=
  Vector.ofFn fun k => xs.getD k 0

theorem bytesOf_toList {n : Nat} (v : Vector UInt8 n) : bytesOf n v.toList = v := by
  apply Vector.ext
  intro k hk
  simp [bytesOf]

/-- `memcpy` of `n` bytes out of the buffer into an array of that size. -/
def memcpy (D : List UInt8) (i n : Nat) : Except Fault (Vector UInt8 n) :=
  if i + n ≤ D.length then
    .ok (bytesOf n (D.drop i))
  else
    .error (.outOfBounds (max i D.length))

/-! Reads that reach past the end of the buffer fail. -/

theorem rd_of_le {D : List UInt8} {i : Nat} (h : D.length ≤ i) :
    rd D i = .error (.outOfBounds i) := by
  rw [rd, List.getElem?_eq_none h]

theorem rd16Le_of_lt {D : List UInt8} {i : Nat} (h : D.length < i + 2) :
    ∃ e, rd16Le D i = .error e := by
  rw [rd16Le, rd_of_le (by omega : D.length ≤ i + 1)]
  cases rd D i <;> exact ⟨_, rfl⟩

theorem rd16Be_of_lt {D : List UInt8} {i : Nat} (h : D.length < i + 2) :
    ∃ e, rd16Be D i = .error e := by
  rw [rd16Be, rd_of_le (by omega : D.length ≤ i + 1)]
  cases rd D i <;> exact ⟨_, rfl⟩

theorem rd32Be_of_lt {D : List UInt8} {i : Nat} (h : D.length < i + 4) :
    ∃ e, rd32Be D i = .error e := by
  rw [rd32Be, rd_of_le (by omega : D.length ≤ i + 3)]
  cases rd D i <;> cases rd D (i + 1) <;> cases rd D (i + 2) <;> exact ⟨_, rfl⟩

theorem rd32Le_of_lt {D : List UInt8} {i : Nat} (h : D.length < i + 4) :
    ∃ e, rd32Le D i = .error e := by
  rw [rd32Le, rd_of_le (by omega : D.length ≤ i + 3)]
  cases rd D i <;> cases rd D (i + 1) <;> cases rd D (i + 2) <;> exact ⟨_, rfl⟩

theorem memcpy_of_lt {D : List UInt8} {i n : Nat} (h : D.length < i + n) :
    ∃ e, memcpy D i n = .error e :=
  ⟨_, if_neg (Nat.not_le_of_lt h)⟩

/-! ## Words in a list of bytes -/

def be16At (xs : List UInt8) (k : Nat) : UInt16 :=
  be16 (xs.getD k 0) (xs.getD (k + 1) 0)

def le16At (xs : List UInt8) (k : Nat) : UInt16 :=
  le16 (xs.getD k 0) (xs.getD (k + 1) 0)

def be32At (xs : List UInt8) (k : Nat) : UInt32 :=
  be32 (xs.getD k 0) (xs.getD (k + 1) 0) (xs.getD (k + 2) 0) (xs.getD (k + 3) 0)

def le32At (xs : List UInt8) (k : Nat) : UInt32 :=
  le32 (xs.getD k 0) (xs.getD (k + 1) 0) (xs.getD (k + 2) 0) (xs.getD (k + 3) 0)

theorem getD_take_of_lt {xs : List UInt8} {n k : Nat} (h : k < n) :
    (xs.take n).getD k 0 = xs.getD k 0 := by
  rw [List.getD_eq_getElem?_getD, List.getD_eq_getElem?_getD, List.getElem?_take_of_lt h]

theorem be16At_take {xs : List UInt8} {n k : Nat} (h : k + 2 ≤ n) :
    be16At (xs.take n) k = be16At xs k := by
  rw [be16At, be16At, getD_take_of_lt (by omega), getD_take_of_lt (by omega)]

theorem be32At_take {xs : List UInt8} {n k : Nat} (h : k + 4 ≤ n) :
    be32At (xs.take n) k = be32At xs k := by
  rw [be32At, be32At, getD_take_of_lt (by omega), getD_take_of_lt (by omega),
    getD_take_of_lt (by omega), getD_take_of_lt (by omega)]

theorem le16At_take {xs : List UInt8} {n k : Nat} (h : k + 2 ≤ n) :
    le16At (xs.take n) k = le16At xs k := by
  rw [le16At, le16At, getD_take_of_lt (by omega), getD_take_of_lt (by omega)]

theorem le32At_take {xs : List UInt8} {n k : Nat} (h : k + 4 ≤ n) :
    le32At (xs.take n) k = le32At xs k := by
  rw [le32At, le32At, getD_take_of_lt (by omega), getD_take_of_lt (by omega),
    getD_take_of_lt (by omega), getD_take_of_lt (by omega)]

theorem le16At_drop (xs : List UInt8) (o k : Nat) : le16At (xs.drop o) k = le16At xs (o + k) := by
  simp only [le16At, List.getD_eq_getElem?_getD, List.getElem?_drop, Nat.add_assoc]

/-! ## Slices of a buffer -/

/-- The bytes `xs` stand in the buffer from index `i` on. -/
def At (D : List UInt8) (i : Nat) (xs : List UInt8) : Prop :=
  xs <+: D.drop i

namespace At

variable {D xs : List UInt8} {i : Nat}

theorem whole (D : List UInt8) : At D 0 D :=
  List.prefix_rfl

theorem add_length_le (h : At D i xs) (hne : 0 < xs.length) : i + xs.length ≤ D.length := by
  have hle := h.length_le
  rw [List.length_drop] at hle
  omega

theorem drop (h : At D i xs) (k : Nat) : At D (i + k) (xs.drop k) := by
  rcases h with ⟨rest, hrest⟩
  refine ⟨rest.drop (k - xs.length), ?_⟩
  rw [← List.drop_append, hrest, List.drop_drop]

theorem take (h : At D i xs) (n : Nat) : At D i (xs.take n) :=
  (List.take_prefix n xs).trans h

theorem getElem? (h : At D i xs) {k : Nat} (hk : k < xs.length) :
    D[i + k]? = some (xs.getD k 0) := by
  have hget := h.getElem hk
  rw [List.getElem_drop] at hget
  have hlen := h.add_length_le (by omega)
  rw [List.getElem?_eq_getElem (by omega), ← hget, List.getD_eq_getElem _ _ hk]

theorem rd (h : At D i xs) {k : Nat} (hk : k < xs.length) :
    Netdiag.rd D (i + k) = .ok (xs.getD k 0) := by
  simp only [Netdiag.rd, h.getElem? hk]

theorem rd16Be (h : At D i xs) {k : Nat} (hk : k + 2 ≤ xs.length) :
    Netdiag.rd16Be D (i + k) = .ok (be16At xs k) := by
  rw [Netdiag.rd16Be, h.rd (by omega), Nat.add_assoc, h.rd (by omega)]
  rfl

theorem rd16Le (h : At D i xs) {k : Nat} (hk : k + 2 ≤ xs.length) :
    Netdiag.rd16Le D (i + k) = .ok (le16At xs k) := by
  rw [Netdiag.rd16Le, h.rd (by omega), Nat.add_assoc, h.rd (by omega)]
  rfl

theorem rd32Be (h : At D i xs) {k : Nat} (hk : k + 4 ≤ xs.length) :
    Netdiag.rd32Be D (i + k) = .ok (be32At xs k) := by
  rw [Netdiag.rd32Be, h.rd (by omega), Nat.add_assoc, h.rd (by omega), Nat.add_assoc,
    h.rd (by omega), Nat.add_assoc, h.rd (by omega)]
  rfl

theorem rd32Le (h : At D i xs) {k : Nat} (hk : k + 4 ≤ xs.length) :
    Netdiag.rd32Le D (i + k) = .ok (le32At xs k) := by
  rw [Netdiag.rd32Le, h.rd (by omega), Nat.add_assoc, h.rd (by omega), Nat.add_assoc,
    h.rd (by omega), Nat.add_assoc, h.rd (by omega)]
  rfl

/-! The first word of a slice. -/

theorem rd_zero (h : At D i xs) (hlen : 1 ≤ xs.length) :
    Netdiag.rd D i = .ok (xs.getD 0 0) := by
  simpa using h.rd (k := 0) (by omega)

theorem rd16Be_zero (h : At D i xs) (hlen : 2 ≤ xs.length) :
    Netdiag.rd16Be D i = .ok (be16At xs 0) := by
  simpa using h.rd16Be (k := 0) (by omega)

theorem rd16Le_zero (h : At D i xs) (hlen : 2 ≤ xs.length) :
    Netdiag.rd16Le D i = .ok (le16At xs 0) := by
  simpa using h.rd16Le (k := 0) (by omega)

theorem rd32Be_zero (h : At D i xs) (hlen : 4 ≤ xs.length) :
    Netdiag.rd32Be D i = .ok (be32At xs 0) := by
  simpa using h.rd32Be (k := 0) (by omega)

theorem rd32Le_zero (h : At D i xs) (hlen : 4 ≤ xs.length) :
    Netdiag.rd32Le D i = .ok (le32At xs 0) := by
  simpa using h.rd32Le (k := 0) (by omega)

theorem memcpy (h : At D i xs) {n : Nat} (hn : n ≤ xs.length) (hpos : 0 < n) :
    Netdiag.memcpy D i n = .ok (bytesOf n xs) := by
  have hlen := h.add_length_le (by omega)
  rw [Netdiag.memcpy, if_pos (by omega)]
  congr 1
  apply Vector.ext
  intro k hk
  have hget := h.getElem? (k := k) (by omega)
  simp only [bytesOf, Vector.getElem_ofFn, List.getD_eq_getElem?_getD, List.getElem?_drop] at hget ⊢
  rw [hget]
  rfl

end At

/-! Reads inside the buffer, by index. -/

section Inside

variable {D : List UInt8} {k : Nat}

theorem rd_of_lt (h : k + 1 ≤ D.length) : rd D k = .ok (D.getD k 0) := by
  simpa using (At.whole D).rd (k := k) (by omega)

theorem rd16Be_of_le (h : k + 2 ≤ D.length) : rd16Be D k = .ok (be16At D k) := by
  simpa using (At.whole D).rd16Be h

theorem rd32Be_of_le (h : k + 4 ≤ D.length) : rd32Be D k = .ok (be32At D k) := by
  simpa using (At.whole D).rd32Be h

theorem memcpy_of_le {n : Nat} (h : k + n ≤ D.length) (hpos : 0 < n) :
    memcpy D k n = .ok (bytesOf n (D.drop k)) := by
  have hat : At D k (D.drop k) := List.prefix_rfl
  exact hat.memcpy (by rw [List.length_drop]; omega) hpos

end Inside

/-! ## Branches that return -/

section Returns

variable {α β : Type} {c : Prop} [Decidable c]

/-- A test that the code makes before it goes on is one of the decoder. -/
theorem ite_eq_ok {x y : Except Fault α} {x' y' : α} (hx : c → x = .ok x')
    (hy : ¬ c → y = .ok y') : (if c then x else y) = .ok (if c then x' else y') := by
  by_cases hc : c
  · rw [if_pos hc, if_pos hc]
    exact hx hc
  · rw [if_neg hc, if_neg hc]
    exact hy hc

theorem bind_eq_ok {read : Except Fault α} {v : α} (h : read = .ok v) (f : α → β) :
    (read >>= fun v => .ok (f v)) = .ok (f v) := by
  rw [h]
  rfl

/-- A read that the test has made safe. -/
theorem read_eq_ok {read : Except Fault α} {v : α} {f : α → β} {b : β}
    (h : c → read = .ok v) :
    (if c then read >>= fun v => .ok (f v) else .ok b) = .ok (if c then f v else b) :=
  ite_eq_ok (fun hc => bind_eq_ok (h hc) f) fun _ => rfl

end Returns
end Netdiag
