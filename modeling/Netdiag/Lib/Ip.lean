import Mathlib.Tactic.Common

/-!
# Ip — what the headers of internet packets say

The length and the protocol that a header of IPv4 gives; the length and the flags that one of TCP
gives; the protocol behind the extension headers of IPv6, if there are any; and the options of a
message of neighbour discovery, of which each gives its length in units of eight bytes.
-/

namespace Netdiag
namespace Lib

/-! ## IPv4 -/

namespace Ipv4

/-- The header counts its length in words. -/
def headerLen (p : List UInt8) : Nat :=
  4 * (p.getD 0 0 &&& 0x0F).toNat

def protocol (p : List UInt8) : UInt8 :=
  p.getD 9 0

def payload (p : List UInt8) : List UInt8 :=
  p.drop (headerLen p)

/-- The packet has a header of version 4, with its twenty bytes and the options, and at least `n`
bytes behind it. -/
structure WellFormed (n : Nat) (p : List UInt8) : Prop where
  version : p.getD 0 0 >>> 4 = 4
  header : 20 ≤ headerLen p
  behind : headerLen p + n ≤ p.length

theorem WellFormed.length_le {n : Nat} {p : List UInt8} (h : WellFormed n p) :
    20 + n ≤ p.length :=
  Nat.le_trans (Nat.add_le_add_right h.header n) h.behind

theorem getD_payload (p : List UInt8) (i : Nat) :
    (payload p).getD i 0 = p.getD (headerLen p + i) 0 := by
  rw [payload, List.getD_eq_getElem?_getD, List.getElem?_drop, ← List.getD_eq_getElem?_getD]

end Ipv4

/-! ## TCP -/

namespace Tcp

/-- The header counts its length in words. -/
def headerLen (s : List UInt8) : Nat :=
  4 * (s.getD 12 0 >>> 4).toNat

def flags (s : List UInt8) : UInt8 :=
  s.getD 13 0

/-- The segment has a header, with its twenty bytes and the options. -/
structure WellFormed (s : List UInt8) : Prop where
  header : 20 ≤ headerLen s
  complete : headerLen s ≤ s.length

/-- Both ends of a connection are set up by this segment, as an open port answers. -/
def SynAck (s : List UInt8) : Prop :=
  flags s &&& 0x02 ≠ 0 ∧ flags s &&& 0x10 ≠ 0

instance (s : List UInt8) : Decidable (SynAck s) :=
  inferInstanceAs (Decidable (_ ∧ _))

/-- One of the flags is set. -/
theorem synOrAck_iff (f : UInt8) : f &&& 0x12 ≠ 0 ↔ f &&& 0x02 ≠ 0 ∨ f &&& 0x10 ≠ 0 := by
  have hsplit : f &&& 0x12 = (f &&& 0x02) ||| (f &&& 0x10) := by
    rw [← UInt8.toNat_inj, UInt8.toNat_or, UInt8.toNat_and, UInt8.toNat_and, UInt8.toNat_and,
      ← Nat.and_or_distrib_left]
    rfl
  rw [hsplit, Ne, UInt8.or_eq_zero_iff, not_and_or]

end Tcp

/-! ## IPv6 -/

namespace Ipv6

/-- The length of an extension header with this number, from its first bytes.  Behind the header of
a fragment that is not the first one there is no protocol. -/
def extensionLen (next : UInt8) (bytes : List UInt8) : Option Nat :=
  if next = 0 ∨ next = 43 ∨ next = 60 then some (8 * ((bytes.getD 1 0).toNat + 1))
  else if next = 51 then some (4 * ((bytes.getD 1 0).toNat + 2))
  else if next = 44 ∧ bytes.getD 2 0 = 0 ∧ bytes.getD 3 0 >>> 3 = 0 then some 8
  else none

/-- The protocol behind the extension headers, and its bytes. -/
def behind : Nat → UInt8 → List UInt8 → UInt8 × List UInt8
  | 0, next, bytes => (next, bytes)
  | fuel + 1, next, bytes =>
      match extensionLen next bytes with
      | some n => behind fuel (bytes.getD 0 0) (bytes.drop n)
      | none => (next, bytes)

/-- The protocol of a packet and its bytes; every extension header takes some of the packet's. -/
def upper (p : List UInt8) : UInt8 × List UInt8 :=
  behind p.length (p.getD 6 0) (p.drop 40)

theorem behind_of_plain {next : UInt8} {bytes : List UInt8} (h : extensionLen next bytes = none)
    (fuel : Nat) : behind fuel next bytes = (next, bytes) := by
  cases fuel with
  | zero => rfl
  | succ fuel => rw [behind, h]

/-- A packet without extension headers. -/
theorem upper_of_plain {p : List UInt8} (h : extensionLen (p.getD 6 0) (p.drop 40) = none) :
    upper p = (p.getD 6 0, p.drop 40) :=
  behind_of_plain h p.length

end Ipv6

/-! ## Options of neighbour discovery -/

/-- Among the options, the first of the type has this body. -/
inductive HasOption (type : UInt8) : List UInt8 → List UInt8 → Prop
  | here {n : UInt8} {os : List UInt8} : n ≠ 0 → 8 * n.toNat ≤ os.length + 2 →
      HasOption type (type :: n :: os) (os.take (8 * n.toNat - 2))
  | there {t n : UInt8} {os body : List UInt8} : t ≠ type → n ≠ 0 →
      HasOption type (os.drop (8 * n.toNat - 2)) body → HasOption type (t :: n :: os) body

namespace HasOption

/-- An option lies among the options. -/
theorem length_le {type : UInt8} {os body : List UInt8} (h : HasOption type os body) :
    body.length + 2 ≤ os.length := by
  induction h with
  | here hn hlen =>
      rw [List.length_take]
      exact Nat.add_le_add_right (Nat.min_le_right _ _) 2
  | there _ _ _ ih =>
      rw [List.length_drop] at ih
      exact Nat.le_trans ih (Nat.le_trans (Nat.sub_le _ _) (Nat.le_add_right _ 2))

/-- The options have one first option of the type. -/
theorem unique {type : UInt8} {os body body' : List UInt8} (h : HasOption type os body)
    (h' : HasOption type os body') : body = body' := by
  induction h with
  | here =>
      cases h' with
      | here => rfl
      | there hne => exact absurd rfl hne
  | there hne _ _ ih =>
      cases h' with
      | here => exact absurd rfl hne
      | there _ _ hrest => exact ih hrest

end HasOption
end Lib
end Netdiag
