import Mathlib.Data.List.Nodup
import Netdiag.Netlink.Msg

/-!
# Put — laying out attributes and messages

The encoders of the tests (`nla_put` and the message builders around it), and the ways in which a
sender may lay out a nest: in any order, with any flag bits in the type fields, and with any other
attributes in between.  Decoding undoes laying out (`attrs_putAll`), and of each type that the nest
is meant to carry it is left with what was meant (`lastAttr_of_nest`).
-/

namespace Netdiag

open Lib

/-! ## Attributes -/

/-- The length field of an attribute. -/
def nlaTotal (data : List UInt8) : UInt16 :=
  4 + UInt16.ofNat data.length

/-- Header and payload of an attribute, without padding. -/
def nlaItem (a : Attr) : List UInt8 :=
  wr16Le (nlaTotal a.payload) ++ (wr16Le a.type ++ a.payload)

/-- The padding after an attribute. -/
def nlaPad (data : List UInt8) : List UInt8 :=
  List.replicate ((nlaAlign (nlaTotal data).toUInt32).toNat - (nlaTotal data).toNat) 0

/-- `nla_put`: the bytes it appends to the buffer.  The type field may carry flag bits. -/
def nlaPut (a : Attr) : List UInt8 :=
  nlaItem a ++ nlaPad a.payload

/-- One `nla_put` after the other. -/
def putAll (as : List Attr) : List UInt8 :=
  as.flatMap nlaPut

/-- The attribute fits the 16 bits of its length field. -/
def Attr.Fits (a : Attr) : Prop :=
  4 + a.payload.length ≤ 65535

/-- What is left of an attribute when the flags are stripped from its type. -/
def Attr.unflag (a : Attr) : Attr :=
  { a with type := a.type &&& nlaTypeMask }

theorem toNat_nlaTotal {a : Attr} (h : a.Fits) :
    (nlaTotal a.payload).toNat = 4 + a.payload.length := by
  rw [Attr.Fits] at h
  rw [nlaTotal, UInt16.toNat_add, UInt16.toNat_ofNat', show (4 : UInt16).toNat = 4 from rfl]
  omega

theorem length_nlaItem (a : Attr) : (nlaItem a).length = 4 + a.payload.length := by
  simp only [nlaItem, List.length_append, length_wr16Le]
  omega

theorem item_nlaItem {a : Attr} (h : a.Fits) : nlaFraming.Item (nlaItem a) := by
  have hlen := length_nlaItem a
  have htotal : le16At (nlaItem a) 0 = nlaTotal a.payload := le16_wr16Le _
  refine nlaFraming_size_eq_some.2 ⟨by omega, by omega, le_rfl, ?_⟩
  rw [htotal, toNat_nlaTotal h, hlen]

theorem ofBytes_nlaItem (a : Attr) : Attr.ofBytes (nlaItem a) = a.unflag := by
  have htype : le16At (nlaItem a) 2 = a.type := le16_wr16Le _
  rw [Attr.ofBytes, htype]
  rfl

theorem length_nlaPad {a : Attr} (h : a.Fits) :
    (nlaItem a).length + (nlaPad a.payload).length = nlaFraming.stride (nlaItem a).length := by
  have hround := le_roundUp4 (4 + a.payload.length)
  rw [nlaPad, List.length_replicate, toNat_nlaAlign_uint16, toNat_nlaTotal h, length_nlaItem,
    nlaFraming_stride]
  omega

theorem packs_putAll {as : List Attr} (h : ∀ a ∈ as, a.Fits) :
    nlaFraming.Packs (as.map nlaItem) (putAll as) := by
  induction as with
  | nil => exact .nil
  | cons a as ih =>
      have hfit := h a List.mem_cons_self
      have hrest := ih (fun b hb => h b (List.mem_cons_of_mem a hb))
      have hput : putAll (a :: as) = nlaItem a ++ (nlaPad a.payload ++ putAll as) := by
        rw [putAll, List.flatMap_cons, nlaPut, List.append_assoc, putAll]
      rw [hput]
      exact .cons (item_nlaItem hfit) (length_nlaPad hfit) hrest

/-- Decoding undoes laying out. -/
theorem attrs_putAll {as : List Attr} (h : ∀ a ∈ as, a.Fits) :
    attrs (putAll as) = as.map Attr.unflag := by
  rw [attrs, Framing.split_of_packs (packs_putAll h), List.map_map]
  exact List.map_congr_left fun a _ => ofBytes_nlaItem a

/-! ## Nests in any order, with foreign attributes -/

/-- The bytes are a nest that carries exactly the attributes `want` of the types `handled`: in
any order, with any flag bits, and with attributes of any other types in between. -/
def Nest (handled : List UInt16) (want : List Attr) (bytes : List UInt8) : Prop :=
  ∃ as : List Attr, (∀ a ∈ as, a.Fits) ∧ bytes = putAll as ∧
    ((as.map Attr.unflag).filter (·.type ∈ handled)).Perm want

theorem length_filter_type_le {as : List Attr} (h : (as.map Attr.type).Nodup) (type : UInt16) :
    (as.filter (·.type = type)).length ≤ 1 := by
  have hcount := List.nodup_iff_count_le_one.1 h type
  rw [List.count, List.countP_map, List.countP_eq_length_filter] at hcount
  simpa [Function.comp_def, beq_eq_decide] using hcount

theorem perm_of_nest {handled : List UInt16} {want : List Attr} {bytes : List UInt8}
    (h : Nest handled want bytes) : ((attrs bytes).filter (·.type ∈ handled)).Perm want := by
  rcases h with ⟨as, hfits, rfl, hperm⟩
  rwa [attrs_putAll hfits]

/-- Of each type that the parser handles, a nest carries what it should. -/
theorem filter_of_nest {handled : List UInt16} {want : List Attr} {bytes : List UInt8}
    (h : Nest handled want bytes) (hnodup : (want.map Attr.type).Nodup) {type : UInt16}
    (htype : type ∈ handled) :
    (attrs bytes).filter (·.type = type) = want.filter (·.type = type) := by
  rcases h with ⟨as, hfits, rfl, hperm⟩
  have hsame : ((as.map Attr.unflag).filter (·.type ∈ handled)).filter (·.type = type) =
      (as.map Attr.unflag).filter (·.type = type) := by
    rw [List.filter_filter]
    refine List.filter_congr fun a _ => ?_
    by_cases ha : a.type = type
    · simp [ha, htype]
    · simp [ha]
  have hfiltered := hperm.filter (·.type = type)
  have honce := length_filter_type_le hnodup type
  rw [hsame] at hfiltered
  rw [attrs_putAll hfits]
  -- A permutation of a list of at most one element is that list.
  cases hwant : want.filter (·.type = type) with
  | nil =>
      rw [hwant] at hfiltered
      exact hfiltered.eq_nil
  | cons a rest =>
      rw [hwant, List.length_cons] at honce
      obtain rfl : rest = [] := List.length_eq_zero_iff.1 (by omega)
      rw [hwant] at hfiltered
      exact List.perm_singleton.1 hfiltered

theorem lastAttr_of_nest {handled : List UInt16} {want : List Attr} {bytes : List UInt8}
    (h : Nest handled want bytes) (hnodup : (want.map Attr.type).Nodup) {type : UInt16}
    (htype : type ∈ handled) (min : Nat) :
    lastAttr type min (attrs bytes) = lastAttr type min want := by
  rw [lastAttr, filter_of_nest h hnodup htype, ← lastAttr]

theorem nested_of_nest {handled : List UInt16} {want : List Attr} {bytes : List UInt8}
    (h : Nest handled want bytes) (hnodup : (want.map Attr.type).Nodup) {type : UInt16}
    (htype : type ∈ handled) : nested type (attrs bytes) = nested type want := by
  rw [nested, filter_of_nest h hnodup htype, ← nested]

/-! ## A nest with nothing else in it -/

/-- Attributes of handled types, with payloads of at most `k` bytes. -/
def Plain (handled : List UInt16) (k : Nat) (as : List Attr) : Prop :=
  ∀ a ∈ as, a.type ∈ handled ∧ a.payload.length ≤ k

theorem Plain.nest {handled : List UInt16} {k : Nat} {as : List Attr} (h : Plain handled k as)
    (hk : k ≤ 65531) (hmask : handled.map (· &&& nlaTypeMask) = handled) :
    Nest handled as (putAll as) := by
  have hkeep : ∀ type ∈ handled, type &&& nlaTypeMask = type :=
    List.map_inj_left.1 (hmask.trans (List.map_id handled).symm)
  have hfits : ∀ a ∈ as, a.Fits := by
    intro a ha
    have hlen := (h a ha).2
    rw [Attr.Fits]
    omega
  have hunflag : as.map Attr.unflag = as := by
    refine (List.map_congr_left fun a ha => ?_).trans (List.map_id as)
    rw [Attr.unflag, hkeep a.type (h a ha).1]
    rfl
  refine ⟨as, hfits, rfl, ?_⟩
  rw [hunflag, List.filter_eq_self.2 fun a ha => decide_eq_true (h a ha).1]

/-- Attributes without flags come back as they were. -/
theorem Plain.attrs_putAll {handled : List UInt16} {k : Nat} {as : List Attr}
    (h : Plain handled k as) (hk : k ≤ 65531)
    (hmask : handled.map (· &&& nlaTypeMask) = handled) : attrs (putAll as) = as := by
  have hkeep : ∀ type ∈ handled, type &&& nlaTypeMask = type :=
    List.map_inj_left.1 (hmask.trans (List.map_id handled).symm)
  have hfits : ∀ a ∈ as, a.Fits := by
    intro a ha
    have hlen := (h a ha).2
    rw [Attr.Fits]
    omega
  rw [Netdiag.attrs_putAll hfits]
  refine (List.map_congr_left fun a ha => ?_).trans (List.map_id as)
  rw [Attr.unflag, hkeep a.type (h a ha).1]
  rfl

theorem Plain.append {handled : List UInt16} {k : Nat} {as bs : List Attr}
    (has : Plain handled k as) (hbs : Plain handled k bs) : Plain handled k (as ++ bs) := by
  intro a ha
  rcases List.mem_append.1 ha with ha | ha
  · exact has a ha
  · exact hbs a ha

theorem Plain.length_putAll_le {handled : List UInt16} {k : Nat} {as : List Attr}
    (h : Plain handled k as) (hk : k ≤ 65531) : (putAll as).length ≤ as.length * (k + 7) := by
  induction as with
  | nil => exact Nat.zero_le _
  | cons a as ih =>
      have hrest := ih fun b hb => h b (List.mem_cons_of_mem a hb)
      have hlen := (h a List.mem_cons_self).2
      have hpad := length_nlaPad (a := a) (by rw [Attr.Fits]; omega)
      have hround := roundUp4_le (4 + a.payload.length)
      rw [nlaFraming_stride, length_nlaItem] at hpad
      rw [putAll, List.flatMap_cons, ← putAll, nlaPut, List.length_append, List.length_append,
        length_nlaItem, hpad, List.length_cons, Nat.add_mul]
      omega

/-! ## Attributes that may be left out -/

/-- An attribute that is there if there is a payload for it. -/
def optAttr (type : UInt16) (payload : Option (List UInt8)) : List Attr :=
  (payload.map (Attr.mk type)).toList

theorem optAttr_types (type : UInt16) (payload : Option (List UInt8)) :
    ((optAttr type payload).map Attr.type).Sublist [type] := by
  cases payload <;> simp [optAttr]

/-- The value that a field gets from an optional attribute. -/
theorem lastAttr_optAttr (type type' : UInt16) (min : Nat) (payload : Option (List UInt8)) :
    lastAttr type min (optAttr type' payload) =
      if type' = type then payload.filter (min ≤ ·.length) else none := by
  cases payload with
  | none => simp [optAttr]
  | some xs =>
      rw [optAttr, Option.map_some, Option.toList_some, lastAttr_single]
      by_cases htype : type' = type <;> by_cases hmin : min ≤ xs.length <;>
        simp [htype, hmin, Option.filter]

/-- The attributes of all nests of a type, in a list with at most one nest. -/
theorem nested_optAttr (type type' : UInt16) (payload : Option (List UInt8)) :
    nested type (optAttr type' payload) = if type' = type then payload.elim [] attrs else [] := by
  cases payload with
  | none => simp [optAttr, nested]
  | some xs =>
      by_cases htype : type' = type
      · simp [optAttr, nested, htype]
      · simp [optAttr, nested, htype]

/-- A nest that carries these attributes; it may be left out when there are none. -/
def OptNest (handled : List UInt16) (want : List Attr) : Option (List UInt8) → Prop
  | some bytes => Nest handled want bytes
  | none => want = []

theorem perm_of_optNest {handled : List UInt16} {want : List Attr} {payload : Option (List UInt8)}
    (h : OptNest handled want payload) :
    ((payload.elim [] attrs).filter (·.type ∈ handled)).Perm want := by
  cases payload with
  | none =>
      obtain rfl : want = [] := h
      exact .nil
  | some bytes => exact perm_of_nest h

theorem filter_of_optNest {handled : List UInt16} {want : List Attr}
    {payload : Option (List UInt8)} (h : OptNest handled want payload)
    (hnodup : (want.map Attr.type).Nodup) {type : UInt16} (htype : type ∈ handled) :
    (payload.elim [] attrs).filter (·.type = type) = want.filter (·.type = type) := by
  cases payload with
  | none =>
      obtain rfl : want = [] := h
      rfl
  | some bytes => exact filter_of_nest h hnodup htype

theorem plain_optAttr {handled : List UInt16} {type : UInt16} (htype : type ∈ handled)
    {payload : Option (List UInt8)} {k : Nat} (hlen : ∀ xs ∈ payload, xs.length ≤ k) :
    Plain handled k (optAttr type payload) := by
  intro a ha
  cases payload with
  | none => cases ha
  | some xs =>
      obtain rfl := List.mem_singleton.1 ha
      exact ⟨htype, hlen xs rfl⟩

theorem length_optAttr_le (type : UInt16) (payload : Option (List UInt8)) :
    (optAttr type payload).length ≤ 1 := by
  cases payload <;> simp [optAttr]

/-! ## Messages -/

/-- The fields of a `nlmsghdr` other than the length, and the four bytes that follow it
(`nfgenmsg`, or `genlmsghdr`). -/
structure MsgHeader where
  nlType : UInt16
  nlFlags : UInt16
  seq : UInt32
  pid : UInt32
  family : Vector UInt8 4

/-- A message with `nl_len` set to its total length. -/
def putMsg (h : MsgHeader) (body : List UInt8) : List UInt8 :=
  wr32Le (UInt32.ofNat (20 + body.length)) ++ (wr16Le h.nlType ++ (wr16Le h.nlFlags ++
    (wr32Le h.seq ++ (wr32Le h.pid ++ (h.family.toList ++ body)))))

theorem length_putMsg (h : MsgHeader) (body : List UInt8) :
    (putMsg h body).length = 20 + body.length := by
  simp only [putMsg, List.length_append, length_wr32Le, length_wr16Le, Vector.length_toList]
  omega

theorem nlmsgLen_putMsg (h : MsgHeader) (body : List UInt8) :
    nlmsgLen (putMsg h body) = UInt32.ofNat (20 + body.length) :=
  le32_wr32Le _

theorem nlmsgType_putMsg (h : MsgHeader) (body : List UInt8) :
    nlmsgType (putMsg h body) = h.nlType :=
  le16_wr16Le _

theorem nlmsgFlags_putMsg (h : MsgHeader) (body : List UInt8) :
    nlmsgFlags (putMsg h body) = h.nlFlags :=
  le16_wr16Le _

theorem drop_putMsg (h : MsgHeader) (body : List UInt8) : (putMsg h body).drop 20 = body := by
  have hsplit : putMsg h body = (wr32Le (UInt32.ofNat (20 + body.length)) ++ (wr16Le h.nlType ++
      (wr16Le h.nlFlags ++ (wr32Le h.seq ++ (wr32Le h.pid ++ h.family.toList))))) ++ body := by
    simp only [putMsg, List.append_assoc]
  rw [hsplit]
  refine List.drop_left' ?_
  simp only [List.length_append, length_wr32Le, length_wr16Le, Vector.length_toList]

/-- A message is found where it was put. -/
theorem item_putMsg (h : MsgHeader) {body : List UInt8} (hlen : 20 + body.length < 2 ^ 32) :
    msgFraming.Item (putMsg h body) := by
  have htotal : (UInt32.ofNat (20 + body.length)).toNat = 20 + body.length := by
    rw [UInt32.toNat_ofNat', Nat.mod_eq_of_lt hlen]
  refine msgFraming_size_eq_some.2 ⟨?_, ?_, le_rfl, ?_⟩
  · rw [length_putMsg]
    omega
  · rw [length_putMsg]
    omega
  · rw [nlmsgLen_putMsg, htotal, length_putMsg]

end Netdiag
