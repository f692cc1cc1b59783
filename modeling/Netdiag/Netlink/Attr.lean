import Netdiag.Lib.Framing
import Netdiag.Machine

/-!
# Attr — netlink attributes and the loop that walks them

A netlink attribute is a four-byte little-endian header (length, type) and a payload; the length
counts the header, and the next attribute starts at the next multiple of four.

The parsers contain a `while` loop over attributes seven times, once for each nest that they know.
`nlaHead` is a turn of such a loop up to the test of the type, by index and in the arithmetic of
the platform, with the expressions that the loop has for its variables; `nlaTurn` goes on with what
it does with the attribute.  `attrs` is the reference decoder.  A loop whose variables are as they
should be (`RightVars`) folds its action over it (`nlaWalk_eq_foldl`).
-/

namespace Netdiag

open Lib

/-! ## The loop of the code -/

/-- `NLA_ALIGN`: `(len + 3u) & ~3u`, in 32-bit arithmetic. -/
def nlaAlign (len : UInt32) : UInt32 :=
  (len + 3) &&& ~~~3

/-- `NLA_TYPE_MASK` strips the flags from a type field. -/
def nlaTypeMask : UInt16 := 0x3fff

/-- The variables of a loop that has come to an attribute.  The loops do not agree on the type of
`plen`. -/
structure Vars (π : Type) where
  off : Nat
  alen : UInt16
  atype : UInt16
  plen : π
  /-- The index that the pointer has in the buffer. -/
  payload : Nat
  aligned : Nat

/-- How far a turn comes: the loop is at its end, it breaks, or it has come to an attribute. -/
inductive Head (π : Type) where
  | done
  | broke
  | visit (v : Vars π)

section Walk

variable {σ π : Type} (p : Platform)

/-- A turn of `while (off + 4 <= len)` over the attributes at `base`, up to the test of the type,
with the expressions that the loop has for `plen` and `aligned`. -/
def nlaHead (D : List UInt8) (base len : Nat) (plen : UInt16 → π) (aligned : UInt16 → Nat)
    (off : Nat) : Except Fault (Head π) := do
  if p.add off 4 ≤ len then
    let alen ← rd16Le D (base + off)
    let atype ← rd16Le D (base + off + 2)
    if alen < 4 ∨ len < p.add off alen.toNat then
      return .broke
    else
      return .visit
        { off, alen, atype := atype &&& nlaTypeMask, plen := plen alen, payload := base + off + 4,
          aligned := aligned alen }
  else
    return .done

/-- One turn of a loop.  The action is given the masked type, `plen` and the index of the
payload. -/
def nlaTurn (head : Nat → Except Fault (Head π)) (act : σ → UInt16 → π → Nat → Except Fault σ) :
    Nat × σ → Except Fault (Turn (Nat × σ) σ)
  | (off, s) => do
      match ← head off with
      | .done => return .leave s
      | .broke => return .leave s
      | .visit v =>
          let s' ← act s v.atype v.plen v.payload
          return .again (p.add off v.aligned, s')

/-- The whole loop over `len` bytes, from `off = 0`.  With more than `len + 2` turns it would stand
at an offset where it has been before, and go on forever. -/
def nlaWalk (len : Nat) (head : Nat → Except Fault (Head π))
    (act : σ → UInt16 → π → Nat → Except Fault σ) (s : σ) : Except Fault σ :=
  Loop.exec (nlaTurn p head act) .stuck (len + 2) (0, s)

end Walk

/-! ## The reference decoder -/

/-- Attributes as items that carry their length in the first two bytes. -/
def nlaFraming : Framing UInt8 :=
  .lengthPrefixed 4 (fun xs => (le16At xs 0).toNat) roundUp4 (by decide)
    (fun xs => by rw [le16At_take (by omega)]) le_roundUp4

/-- A decoded attribute: its type without flags, and its payload. -/
structure Attr where
  type : UInt16
  payload : List UInt8
  deriving DecidableEq, Repr

def Attr.ofBytes (m : List UInt8) : Attr :=
  { type := le16At m 2 &&& nlaTypeMask, payload := m.drop 4 }

/-- The attributes of the longest well-formed prefix of a nest. -/
def attrs (xs : List UInt8) : List Attr :=
  (nlaFraming.split xs).map Attr.ofBytes

theorem nlaFraming_size_eq_some {xs : List UInt8} {n : Nat} :
    nlaFraming.size xs = some n ↔
      4 ≤ xs.length ∧ 4 ≤ n ∧ n ≤ xs.length ∧ (le16At xs 0).toNat = n :=
  Framing.lengthPrefixed_size_eq_some

theorem nlaFraming_size_eq_none {xs : List UInt8} :
    nlaFraming.size xs = none ↔
      ¬ (4 ≤ xs.length ∧ 4 ≤ (le16At xs 0).toNat ∧ (le16At xs 0).toNat ≤ xs.length) :=
  Framing.lengthPrefixed_size_eq_none

@[simp] theorem nlaFraming_stride (n : Nat) : nlaFraming.stride n = roundUp4 n := rfl

/-! ## The last attribute of a type -/

/-- The payload of the last attribute of the type with at least `min` bytes.  Where a loop assigns
a field from every attribute that carries it, this is the one that the field is left with. -/
def lastAttr (type : UInt16) (min : Nat) (as : List Attr) : Option (List UInt8) :=
  (((as.filter (·.type = type)).map Attr.payload).filter (min ≤ ·.length)).getLast?

theorem lastAttr_append (type : UInt16) (min : Nat) (as bs : List Attr) :
    lastAttr type min (as ++ bs) = (lastAttr type min bs).or (lastAttr type min as) := by
  simp only [lastAttr, List.filter_append, List.map_append, List.getLast?_append]

@[simp] theorem lastAttr_nil (type : UInt16) (min : Nat) : lastAttr type min [] = none := rfl

theorem lastAttr_single (type : UInt16) (min : Nat) (a : Attr) :
    lastAttr type min [a] =
      if a.type = type ∧ min ≤ a.payload.length then some a.payload else none := by
  by_cases htype : a.type = type <;> by_cases hmin : min ≤ a.payload.length <;>
    simp [lastAttr, htype, hmin]

theorem isSome_lastAttr_iff {type : UInt16} {min : Nat} {as : List Attr} :
    (lastAttr type min as).isSome = true ↔ ∃ a ∈ as, a.type = type ∧ min ≤ a.payload.length := by
  rw [lastAttr, List.getLast?_isSome]
  constructor
  · intro hne
    rcases List.exists_mem_of_ne_nil _ hne with ⟨xs, hxs⟩
    rcases List.mem_filter.1 hxs with ⟨hmap, hmin⟩
    rcases List.mem_map.1 hmap with ⟨a, ha, rfl⟩
    rcases List.mem_filter.1 ha with ⟨ha, htype⟩
    exact ⟨a, ha, of_decide_eq_true htype, of_decide_eq_true hmin⟩
  · rintro ⟨a, ha, htype, hmin⟩
    refine List.ne_nil_of_mem (a := a.payload) (List.mem_filter.2 ⟨?_, decide_eq_true hmin⟩)
    exact List.mem_map_of_mem (List.mem_filter.2 ⟨ha, decide_eq_true htype⟩)

/-- An attribute of either type is there. -/
theorem isSome_lastAttr_or_iff {type type' : UInt16} {min : Nat} {as : List Attr} :
    (lastAttr type min as).isSome = true ∨ (lastAttr type' min as).isSome = true ↔
      ∃ a ∈ as, (a.type = type ∨ a.type = type') ∧ min ≤ a.payload.length := by
  rw [isSome_lastAttr_iff, isSome_lastAttr_iff]
  constructor
  · rintro (⟨a, ha, htype, hlen⟩ | ⟨a, ha, htype, hlen⟩)
    · exact ⟨a, ha, .inl htype, hlen⟩
    · exact ⟨a, ha, .inr htype, hlen⟩
  · rintro ⟨a, ha, htype | htype, hlen⟩
    · exact .inl ⟨a, ha, htype, hlen⟩
    · exact .inr ⟨a, ha, htype, hlen⟩

/-- A field that a later attribute may assign again. -/
theorem elim_or {α β : Type} (x y : Option α) (d : β) (f : α → β) :
    (x.or y).elim d f = x.elim (y.elim d f) f := by
  cases x <;> rfl

/-! ## Nests of one type -/

/-- The attributes of all nests of a type, in order. -/
def nested (type : UInt16) (as : List Attr) : List Attr :=
  (as.filter (·.type = type)).flatMap fun a => attrs a.payload

theorem nested_cons (type : UInt16) (a : Attr) (as : List Attr) :
    nested type (a :: as) = (if a.type = type then attrs a.payload else []) ++ nested type as := by
  by_cases htype : a.type = type <;> simp [nested, htype]

theorem nested_append (type : UInt16) (as bs : List Attr) :
    nested type (as ++ bs) = nested type as ++ nested type bs := by
  simp only [nested, List.filter_append, List.flatMap_append]

theorem mem_nested {type : UInt16} {as : List Attr} {b : Attr} :
    b ∈ nested type as ↔ ∃ a ∈ as, a.type = type ∧ b ∈ attrs a.payload := by
  simp only [nested, List.mem_flatMap, List.mem_filter, decide_eq_true_eq, and_assoc]

/-! ## The loop folds over the decoding -/

theorem toNat_nlaAlign {len : UInt32} (h : len.toNat ≤ 2 ^ 32 - 4) :
    (nlaAlign len).toNat = roundUp4 len.toNat := by
  have hsum : (len + 3).toNat = len.toNat + 3 := by
    rw [UInt32.toNat_add, show (3 : UInt32).toNat = 3 from rfl, Nat.mod_eq_of_lt (by omega)]
  rw [nlaAlign, toNat_and_not_3, hsum, roundUp4]

theorem toNat_nlaAlign_uint16 (alen : UInt16) :
    (nlaAlign alen.toUInt32).toNat = roundUp4 alen.toNat := by
  have hlt : alen.toNat < 2 ^ 16 := alen.toNat_lt
  rw [toNat_nlaAlign (by rw [UInt16.toNat_toUInt32]; omega), UInt16.toNat_toUInt32]

/-- The expressions of a loop for `plen` and `aligned` give the length of the payload, as a value of
the type of `plen`, and the distance to the next attribute. -/
structure RightVars {π : Type} (val : π → Nat) (plen : UInt16 → π) (aligned : UInt16 → Nat) :
    Prop where
  plen_eq : ∀ {alen : UInt16} {n : Nat}, alen.toNat = 4 + n → val (plen alen) = n
  aligned_eq : ∀ alen, aligned alen = (nlaAlign alen.toUInt32).toNat

/-- Wherever the payload of an attribute stands, the action does with it what `step` says. -/
def ActsAs {σ π : Type} (val : π → Nat) (D : List UInt8)
    (act : σ → UInt16 → π → Nat → Except Fault σ) (step : σ → Attr → σ) : Prop :=
  ∀ (s : σ) (a : Attr) (plen : π) (q : Nat), a.payload.length < 2 ^ 16 →
    val plen = a.payload.length → At D q a.payload → act s a.type plen q = .ok (step s a)

section Walk

variable {σ π : Type} {p : Platform} {D xs : List UInt8} {base : Nat}
  {head : Nat → Except Fault (Head π)} {act : σ → UInt16 → π → Nat → Except Fault σ}
  {step : σ → Attr → σ} {val : π → Nat} {plen : UInt16 → π} {aligned : UInt16 → Nat}

/-- The payload of an attribute is short enough for the loop that walks it. -/
theorem nest_fits (hlen : xs.length < 2 ^ 16) : xs.length + 2 ^ 16 ≤ p.sizeMod := by
  have hmod := p.le_sizeMod
  omega

/-- A walk never stands further than the padding of one attribute past the end. -/
theorem nlaOffset_le {off : Nat} (h : nlaFraming.Offset xs off) : off ≤ xs.length + 3 := by
  cases h with
  | start => omega
  | @next o n _ hs =>
      have hle := Framing.add_size_le hs
      have hround := roundUp4_le n
      rw [nlaFraming_stride]
      omega

/-- What a turn makes of its head. -/
theorem nlaTurn_of_done {off : Nat} (h : head off = .ok .done) (s : σ) :
    nlaTurn p head act (off, s) = .ok (.leave s) := by
  rw [nlaTurn, h]
  rfl

theorem nlaTurn_of_broke {off : Nat} (h : head off = .ok .broke) (s : σ) :
    nlaTurn p head act (off, s) = .ok (.leave s) := by
  rw [nlaTurn, h]
  rfl

theorem nlaTurn_of_visit {off : Nat} {v : Vars π} (h : head off = .ok (.visit v)) {s t : σ}
    (hact : act s v.atype v.plen v.payload = .ok t) :
    nlaTurn p head act (off, s) = .ok (.again (p.add off v.aligned, t)) := by
  rw [nlaTurn, h]
  simp only [bind, Except.bind, hact]
  rfl

/-- Where no attribute stands, the guard of the loop fails or the header there is no good. -/
theorem nlaHead_of_none (hat : At D base xs) (hfit : xs.length + 2 ^ 16 ≤ p.sizeMod) {off : Nat}
    (hoff : nlaFraming.Offset xs off) (hnone : nlaFraming.size (xs.drop off) = none)
    (plen : UInt16 → π) (aligned : UInt16 → Nat) :
    nlaHead p D base xs.length plen aligned off =
      .ok (if off + 4 ≤ xs.length then .broke else .done) := by
  have hle := nlaOffset_le hoff
  rw [nlaHead, Platform.add_of_lt (by omega)]
  by_cases hguard : off + 4 ≤ xs.length
  · have hhere := hat.drop off
    have hlen : (xs.drop off).length = xs.length - off := List.length_drop
    have hread := hhere.rd16Le_zero (by omega)
    have hsmall : (le16At (xs.drop off) 0).toNat < 2 ^ 16 := UInt16.toNat_lt _
    -- Were the header good, an attribute would stand here: the sum does not wrap.
    have hbad : le16At (xs.drop off) 0 < 4 ∨
        xs.length < p.add off (le16At (xs.drop off) 0).toNat := by
      by_contra hgood
      rw [not_or, UInt16.not_lt, UInt16.le_iff_toNat_le, Platform.add_of_lt (by omega)] at hgood
      have h4 : (4 : UInt16).toNat = 4 := rfl
      exact nlaFraming_size_eq_none.1 hnone ⟨by omega, by omega, by omega⟩
    rw [if_pos hguard, if_pos hguard, hread, hhere.rd16Le (by omega)]
    exact if_pos hbad
  · rw [if_neg hguard, if_neg hguard]
    rfl

/-- Where an attribute stands, the loop comes to it. -/
theorem nlaHead_of_some (hat : At D base xs) (hfit : xs.length + 2 ^ 16 ≤ p.sizeMod) {off n : Nat}
    (hsome : nlaFraming.size (xs.drop off) = some n) (plen : UInt16 → π)
    (aligned : UInt16 → Nat) :
    nlaHead p D base xs.length plen aligned off = .ok (.visit
      { off, alen := le16At (xs.drop off) 0, atype := (Attr.ofBytes ((xs.drop off).take n)).type,
        plen := plen (le16At (xs.drop off) 0), payload := base + off + 4,
        aligned := aligned (le16At (xs.drop off) 0) }) := by
  obtain ⟨hheader, hmin, hmax, hn⟩ := nlaFraming_size_eq_some.1 hsome
  have hhere := hat.drop off
  have hlen : (xs.drop off).length = xs.length - off := List.length_drop
  have hread := hhere.rd16Le_zero (by omega)
  have h16 : n < 2 ^ 16 := hn ▸ UInt16.toNat_lt _
  have hgood : ¬ (le16At (xs.drop off) 0 < 4 ∨
      xs.length < p.add off (le16At (xs.drop off) 0).toNat) := by
    rw [not_or, UInt16.not_lt, UInt16.le_iff_toNat_le, hn, Platform.add_of_lt (by omega)]
    exact ⟨hmin, by omega⟩
  have htype : le16At (xs.drop off) 2 = le16At ((xs.drop off).take n) 2 :=
    (le16At_take (by omega)).symm
  rw [nlaHead, Platform.add_of_lt (by omega), if_pos (by omega), hread, hhere.rd16Le (by omega)]
  simp only [bind, Except.bind, if_neg hgood, htype]
  rfl

/-- The payload is what is left of the attribute after its header. -/
theorem at_payload (hat : At D base xs) {off n : Nat}
    (hsome : nlaFraming.size (xs.drop off) = some n) :
    At D (base + off + 4) (Attr.ofBytes ((xs.drop off).take n)).payload ∧
      4 + (Attr.ofBytes ((xs.drop off).take n)).payload.length = n := by
  obtain ⟨_, hmin, hmax, _⟩ := nlaFraming_size_eq_some.1 hsome
  refine ⟨((hat.drop off).take n).drop 4, ?_⟩
  simp only [Attr.ofBytes, List.length_drop, List.length_take]
  rw [List.length_drop] at hmax
  omega

theorem payload_lt {off n : Nat} (hsome : nlaFraming.size (xs.drop off) = some n) :
    (Attr.ofBytes ((xs.drop off).take n)).payload.length < 2 ^ 16 := by
  obtain ⟨_, _, _, hn⟩ := nlaFraming_size_eq_some.1 hsome
  have h16 : n < 2 ^ 16 := hn ▸ UInt16.toNat_lt _
  simp only [Attr.ofBytes, List.length_drop, List.length_take]
  omega

/-- The rounding of the loops, where an attribute stands. -/
theorem toNat_nlaAlign_of_some {off n : Nat} (hsome : nlaFraming.size (xs.drop off) = some n) :
    (nlaAlign (le16At (xs.drop off) 0).toUInt32).toNat = nlaFraming.stride n := by
  rw [toNat_nlaAlign_uint16, (nlaFraming_size_eq_some.1 hsome).2.2.2, nlaFraming_stride]

/-- The step to the next attribute does not wrap. -/
theorem add_stride (hfit : xs.length + 2 ^ 16 ≤ p.sizeMod) {off n : Nat}
    (hsome : nlaFraming.size (xs.drop off) = some n) :
    p.add off (nlaFraming.stride n) = off + nlaFraming.stride n := by
  have hend := Framing.add_size_le hsome
  have hround := roundUp4_le n
  rw [nlaFraming_stride]
  exact Platform.add_of_lt (by omega)

/-- Where no attribute stands, a turn leaves. -/
theorem nlaTurn_of_none (hat : At D base xs) (hfit : xs.length + 2 ^ 16 ≤ p.sizeMod) {off : Nat}
    (hoff : nlaFraming.Offset xs off) (hnone : nlaFraming.size (xs.drop off) = none) (s : σ) :
    nlaTurn p (nlaHead p D base xs.length plen aligned) act (off, s) = .ok (.leave s) := by
  have hhead := nlaHead_of_none hat hfit hoff hnone plen aligned
  split_ifs at hhead
  · exact nlaTurn_of_broke hhead s
  · exact nlaTurn_of_done hhead s

/-- Where an attribute stands, a turn acts on it and moves on by its aligned length. -/
theorem nlaTurn_of_some (hat : At D base xs) (hfit : xs.length + 2 ^ 16 ≤ p.sizeMod)
    (hvars : RightVars val plen aligned) (hact : ActsAs val D act step) {off n : Nat}
    (hsome : nlaFraming.size (xs.drop off) = some n) (s : σ) :
    nlaTurn p (nlaHead p D base xs.length plen aligned) act (off, s) =
      .ok (.again (off + nlaFraming.stride n,
        step s (Attr.ofBytes ((xs.drop off).take n)))) := by
  have hpayload := at_payload hat hsome
  have hn := (nlaFraming_size_eq_some.1 hsome).2.2.2
  have hstep := hact s (Attr.ofBytes ((xs.drop off).take n)) (plen (le16At (xs.drop off) 0))
    (base + off + 4) (payload_lt hsome) (hvars.plen_eq (hn.trans hpayload.2.symm)) hpayload.1
  rw [nlaTurn_of_visit (nlaHead_of_some hat hfit hsome plen aligned) hstep, hvars.aligned_eq,
    toNat_nlaAlign_of_some hsome, add_stride hfit hsome]

/-- The loop computes the fold of its action over the attributes of the nest. -/
theorem nlaWalk_eq_foldl (hat : At D base xs) (hfit : xs.length + 2 ^ 16 ≤ p.sizeMod)
    (hvars : RightVars val plen aligned) (hact : ActsAs val D act step) (s : σ) :
    nlaWalk p xs.length (nlaHead p D base xs.length plen aligned) act s =
      .ok ((attrs xs).foldl step s) := by
  have hrun : Loop.run (nlaTurn p (nlaHead p D base xs.length plen aligned) act) (xs.length + 2)
      (0, s) =
      some (.ok ((nlaFraming.split (xs.drop 0)).foldl (fun s m => step s (Attr.ofBytes m)) s)) :=
    Framing.run_eq_foldl_split xs (fun s m => step s (Attr.ofBytes m))
      (fun off s hoff hnone => nlaTurn_of_none hat hfit hoff hnone s)
      (fun off s n _ hsome => nlaTurn_of_some hat hfit hvars hact hsome s) .start (by omega)
  rw [nlaWalk, Loop.exec_of_run hrun, List.drop_zero, attrs, List.foldl_map]

end Walk
end Netdiag
