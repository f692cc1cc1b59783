import Netdiag.Nfct.Sources

/-!
# Family — the address family of an event and of what is extracted from it

An event has one flag `is_ipv6` for two tuples, each of which may have been decoded from IPv4 or
from IPv6 attributes.  `Coherent` says what the flag should mean for a caller, `OneFamily` and
`HasEnds` say of which messages this is true (`coherent_iff`): a message whose tuples are of
different families breaks it, and so does a tuple without the address that an extractor writes.
`coherentDelivery_iff` carries it over to the events that a caller reads after feeding a buffer.
-/

namespace Netdiag
namespace Nfct

open Lib

/-! ## The addresses of a tuple -/

/-- The IPv4 address of the given end that a tuple carries, zero if it carries none. -/
def addr4 (type : UInt16) (xs : List UInt8) : UInt32 :=
  (lastAttr type 4 (addrs xs)).elim 0 (be32At · 0)

def addr6 (type : UInt16) (xs : List UInt8) : Vector UInt8 16 :=
  (lastAttr type 16 (addrs xs)).elim (Vector.replicate 16 0) (bytesOf 16)

/-- The value was decoded from an attribute of the tuple. -/
def From4 (type : UInt16) (xs : List UInt8) (v : UInt32) : Prop :=
  ∃ payload, lastAttr type 4 (addrs xs) = some payload ∧ v = be32At payload 0

def From6 (type : UInt16) (xs : List UInt8) (v : Vector UInt8 16) : Prop :=
  ∃ payload, lastAttr type 16 (addrs xs) = some payload ∧ v = bytesOf 16 payload

theorem from4_addr4_iff (type : UInt16) (xs : List UInt8) :
    From4 type xs (addr4 type xs) ↔ ∃ payload, lastAttr type 4 (addrs xs) = some payload := by
  rw [From4, addr4]
  cases lastAttr type 4 (addrs xs) <;> simp

theorem from6_addr6_iff (type : UInt16) (xs : List UInt8) :
    From6 type xs (addr6 type xs) ↔ ∃ payload, lastAttr type 16 (addrs xs) = some payload := by
  rw [From6, addr6]
  cases lastAttr type 16 (addrs xs) <;> simp

/-! ## What the flag should mean -/

/-- The fields of an event against the message that it was decoded from. -/
structure SidesMatch (f : List UInt8) (ev : Event) : Prop where
  lan6 : ev.isIpv6 = true → ev.hasLan = true → Carries6 (origNest f) ∧
    ev.lanSrcIp6 = addr6 ctaIpV6Src (origNest f) ∧ ev.lanDstIp6 = addr6 ctaIpV6Dst (origNest f)
  wan6 : ev.isIpv6 = true → ev.hasWan = true → Carries6 (replyNest f) ∧
    ev.wanSrcIp6 = addr6 ctaIpV6Dst (replyNest f) ∧ ev.wanDstIp6 = addr6 ctaIpV6Src (replyNest f)
  lan4 : ev.isIpv6 = false → ev.hasLan = true → Carries4 (origNest f) ∧
    ev.lanSrcIp = addr4 ctaIpV4Src (origNest f) ∧ ev.lanDstIp = addr4 ctaIpV4Dst (origNest f)
  wan4 : ev.isIpv6 = false → ev.hasWan = true → Carries4 (replyNest f) ∧
    ev.wanSrcIp = addr4 ctaIpV4Dst (replyNest f) ∧ ev.wanDstIp = addr4 ctaIpV4Src (replyNest f)

/-- What the extractors write for a side that is present comes from an attribute of the family. -/
structure Extracts (f : List UInt8) (ev : Event) : Prop where
  tuple6 : ∀ out, (eventForensicsTupleV6 (some ev) out).1 = 1 →
    (∀ v, (eventForensicsTupleV6 (some ev) out).2.lanSrc = some v → ev.hasLan = true →
      From6 ctaIpV6Src (origNest f) v) ∧
    (∀ v, (eventForensicsTupleV6 (some ev) out).2.wanSrc = some v → ev.hasWan = true →
      From6 ctaIpV6Dst (replyNest f) v)
  tuple4 : ∀ out, (eventForensicsTuple (some ev) out).1 = 1 →
    (∀ v, (eventForensicsTuple (some ev) out).2.lanSrc = some v → ev.hasLan = true →
      From4 ctaIpV4Src (origNest f) v) ∧
    (∀ v, (eventForensicsTuple (some ev) out).2.wanSrc = some v → ev.hasWan = true →
      From4 ctaIpV4Dst (replyNest f) v)

structure Coherent (f : List UInt8) (ev : Event) : Prop where
  sides : SidesMatch f ev
  extracts : Extracts f ev

/-! ## When it is so -/

/-- The tuple carries IPv6 addresses and no IPv4 address. -/
def Only6 (xs : List UInt8) : Prop :=
  Carries6 xs ∧ ¬ Carries4 xs

instance (xs : List UInt8) : Decidable (Only6 xs) :=
  inferInstanceAs (Decidable (_ ∧ _))

theorem carries4_of_not_only6 {xs : List UInt8} (h : ¬ Only6 xs)
    (hsome : Carries4 xs ∨ Carries6 xs) : Carries4 xs := by
  by_contra hc4
  exact h ⟨hsome.resolve_left hc4, hc4⟩

/-- No tuple with an IPv4 address stands beside one with IPv6 addresses only; the exception is one
that also has IPv6 attributes with nothing but zeros. -/
structure OneFamily (f : List UInt8) : Prop where
  orig : Carries4 (origNest f) → Only6 (replyNest f) → Carries6 (origNest f) ∧
    addr6 ctaIpV6Src (origNest f) = Vector.replicate 16 0 ∧
    addr6 ctaIpV6Dst (origNest f) = Vector.replicate 16 0
  reply : Carries4 (replyNest f) → Only6 (origNest f) → Carries6 (replyNest f) ∧
    addr6 ctaIpV6Dst (replyNest f) = Vector.replicate 16 0 ∧
    addr6 ctaIpV6Src (replyNest f) = Vector.replicate 16 0

/-- The protocol number that a message gives. -/
def protoNum (f : List UInt8) : UInt8 :=
  let num (xs : List UInt8) := lastAttr ctaProtoNum 1 (nested ctaTupleProto (attrs xs))
  ((num (origNest f)).or (num (replyNest f))).elim 0 (·.getD 0 0)

/-- Where an extractor returns `1`, the original tuple has its source and the reply tuple, if it
has an address, its destination. -/
structure HasEnds (f : List UInt8) : Prop where
  ends6 : protoNum f ≠ 0 → Only6 (origNest f) ∨ Only6 (replyNest f) →
    Carries4 (origNest f) ∨ Carries6 (origNest f) →
      (∃ payload, lastAttr ctaIpV6Src 16 (addrs (origNest f)) = some payload) ∧
      (Carries4 (replyNest f) ∨ Carries6 (replyNest f) →
        ∃ payload, lastAttr ctaIpV6Dst 16 (addrs (replyNest f)) = some payload)
  ends4 : protoNum f ≠ 0 → ¬ (Only6 (origNest f) ∨ Only6 (replyNest f)) →
    Carries4 (origNest f) ∨ Carries6 (origNest f) →
      (∃ payload, lastAttr ctaIpV4Src 4 (addrs (origNest f)) = some payload) ∧
      (Carries4 (replyNest f) ∨ Carries6 (replyNest f) →
        ∃ payload, lastAttr ctaIpV4Dst 4 (addrs (replyNest f)) = some payload)

/-! ## The fields of the event of a message -/

theorem tupleOf_addrs (xs : List UInt8) :
    (tupleOf xs).srcIp = addr4 ctaIpV4Src xs ∧ (tupleOf xs).dstIp = addr4 ctaIpV4Dst xs ∧
    (tupleOf xs).srcIp6 = addr6 ctaIpV6Src xs ∧ (tupleOf xs).dstIp6 = addr6 ctaIpV6Dst xs := by
  rw [tupleOf_eq]
  exact ⟨rfl, rfl, rfl, rfl⟩

section Fields

variable {f : List UInt8}

/-- Labelling an event leaves its sides alone. -/
theorem frameEvent_sides (f : List UInt8) :
    frameEvent f =
      { decoded f with type := (frameEvent f).type, reason := (frameEvent f).reason } := by
  rcases labelEvent_eq (nlmsgType f) (nlmsgLen f) (decoded f) with ⟨type, reason, hlabel⟩
  rw [frameEvent_eq, hlabel]

theorem hasLan_iff :
    (frameEvent f).hasLan = true ↔ Carries4 (origNest f) ∨ Carries6 (origNest f) := by
  rw [frameEvent_sides]
  exact decoded_hasLan f

theorem hasWan_iff :
    (frameEvent f).hasWan = true ↔ Carries4 (replyNest f) ∨ Carries6 (replyNest f) := by
  rw [frameEvent_sides]
  exact decoded_hasWan f

theorem isIpv6_iff :
    (frameEvent f).isIpv6 = true ↔ Only6 (origNest f) ∨ Only6 (replyNest f) := by
  rw [frameEvent_sides, decoded, applyTuples_eq, eventOfHeader_eq]
  simp only [Event.setCt, Only6, ← hasIp_tupleOf, ← hasIp6_tupleOf]
  cases (tupleOf (origNest f)).hasIp <;> cases (tupleOf (origNest f)).hasIp6 <;>
    cases (tupleOf (replyNest f)).hasIp <;> cases (tupleOf (replyNest f)).hasIp6 <;> simp

theorem not_isIpv6_iff :
    (frameEvent f).isIpv6 = false ↔ ¬ (Only6 (origNest f) ∨ Only6 (replyNest f)) := by
  rw [← isIpv6_iff, Bool.not_eq_true]

theorem protocol_eq : (frameEvent f).protocol = protoNum f := by
  rw [frameEvent_sides, decoded, applyTuples_eq, eventOfHeader_eq, tupleOf_eq, tupleOf_eq]
  simp only [Tuple.setProto, Tuple.setIp, Event.setCt, protoNum, Bool.false_or]
  cases lastAttr ctaProtoNum 1 (nested ctaTupleProto (attrs (origNest f))) <;>
    cases lastAttr ctaProtoNum 1 (nested ctaTupleProto (attrs (replyNest f))) <;> rfl

/-- A side with an IPv4 address has its IPv4 fields filled, and its IPv6 fields left at zero. -/
theorem lan_of_carries4 (h : Carries4 (origNest f)) :
    ((frameEvent f).lanSrcIp = addr4 ctaIpV4Src (origNest f) ∧
      (frameEvent f).lanDstIp = addr4 ctaIpV4Dst (origNest f)) ∧
    (frameEvent f).lanSrcIp6 = Vector.replicate 16 0 ∧
      (frameEvent f).lanDstIp6 = Vector.replicate 16 0 := by
  have hip := (hasIp_tupleOf _).2 h
  rw [frameEvent_sides, decoded, applyTuples_eq, eventOfHeader_eq]
  simp only [hip, Event.setCt, (tupleOf_addrs _).1, (tupleOf_addrs _).2.1]
  exact ⟨⟨rfl, rfl⟩, rfl, rfl⟩

theorem wan_of_carries4 (h : Carries4 (replyNest f)) :
    ((frameEvent f).wanSrcIp = addr4 ctaIpV4Dst (replyNest f) ∧
      (frameEvent f).wanDstIp = addr4 ctaIpV4Src (replyNest f)) ∧
    (frameEvent f).wanSrcIp6 = Vector.replicate 16 0 ∧
      (frameEvent f).wanDstIp6 = Vector.replicate 16 0 := by
  have hip := (hasIp_tupleOf _).2 h
  rw [frameEvent_sides, decoded, applyTuples_eq, eventOfHeader_eq]
  simp only [hip, Event.setCt, (tupleOf_addrs _).1, (tupleOf_addrs _).2.1]
  exact ⟨⟨rfl, rfl⟩, rfl, rfl⟩

theorem lan_of_only6 (h : Only6 (origNest f)) :
    (frameEvent f).lanSrcIp6 = addr6 ctaIpV6Src (origNest f) ∧
      (frameEvent f).lanDstIp6 = addr6 ctaIpV6Dst (origNest f) := by
  have hip6 := (hasIp6_tupleOf _).2 h.1
  have hip : (tupleOf (origNest f)).hasIp = false :=
    Bool.eq_false_iff.2 fun hip => h.2 ((hasIp_tupleOf _).1 hip)
  rw [frameEvent_sides, decoded, applyTuples_eq, eventOfHeader_eq]
  simp only [hip, hip6, Event.setCt, (tupleOf_addrs _).2.2]
  exact ⟨rfl, rfl⟩

theorem wan_of_only6 (h : Only6 (replyNest f)) :
    (frameEvent f).wanSrcIp6 = addr6 ctaIpV6Dst (replyNest f) ∧
      (frameEvent f).wanDstIp6 = addr6 ctaIpV6Src (replyNest f) := by
  have hip6 := (hasIp6_tupleOf _).2 h.1
  have hip : (tupleOf (replyNest f)).hasIp = false :=
    Bool.eq_false_iff.2 fun hip => h.2 ((hasIp_tupleOf _).1 hip)
  rw [frameEvent_sides, decoded, applyTuples_eq, eventOfHeader_eq]
  simp only [hip, hip6, Event.setCt, (tupleOf_addrs _).2.2]
  exact ⟨rfl, rfl⟩

end Fields

/-! ## The sides of an event -/

/-- One side of an event, `c4` and `c6` being what its own tuple carries and `o6` that the other
one carries IPv6 addresses only. -/
theorem side6_iff {V : Type} {c4 c6 o6 present ipv6 : Prop} {src dst srcAttr dstAttr zero : V}
    (hpresent : present ↔ c4 ∨ c6) (hipv6 : ipv6 ↔ (c6 ∧ ¬ c4) ∨ o6)
    (h4 : c4 → src = zero ∧ dst = zero) (h6 : c6 ∧ ¬ c4 → src = srcAttr ∧ dst = dstAttr) :
    (ipv6 → present → c6 ∧ src = srcAttr ∧ dst = dstAttr) ↔
      (c4 → o6 → c6 ∧ srcAttr = zero ∧ dstAttr = zero) := by
  constructor
  · intro hside hc4 ho6
    rcases hside (hipv6.2 (.inr ho6)) (hpresent.2 (.inl hc4)) with ⟨hc6, hsrc, hdst⟩
    rcases h4 hc4 with ⟨hsrc', hdst'⟩
    exact ⟨hc6, hsrc.symm.trans hsrc', hdst.symm.trans hdst'⟩
  · intro hother hflag hthere
    by_cases hc4 : c4
    · -- The flag was set for the other side.
      have ho6 : o6 := (hipv6.1 hflag).resolve_left fun honly => honly.2 hc4
      rcases hother hc4 ho6 with ⟨hc6, hsrc, hdst⟩
      rcases h4 hc4 with ⟨hsrc', hdst'⟩
      exact ⟨hc6, hsrc'.trans hsrc.symm, hdst'.trans hdst.symm⟩
    · have hc6 : c6 := (hpresent.1 hthere).resolve_left hc4
      exact ⟨hc6, h6 ⟨hc6, hc4⟩⟩

theorem sidesMatch_iff (f : List UInt8) : SidesMatch f (frameEvent f) ↔ OneFamily f := by
  have hlan := side6_iff (hasLan_iff (f := f)) isIpv6_iff (fun h => (lan_of_carries4 h).2)
    lan_of_only6
  have hwan := side6_iff (hasWan_iff (f := f)) (isIpv6_iff.trans or_comm)
    (fun h => (wan_of_carries4 h).2) wan_of_only6
  constructor
  · intro h
    exact ⟨hlan.1 h.lan6, hwan.1 h.wan6⟩
  · intro h
    refine ⟨hlan.2 h.orig, hwan.2 h.reply, ?_, ?_⟩
    -- Without the flag neither tuple is IPv6 only, whatever the message is.
    · intro hflag hthere
      have honly : ¬ Only6 (origNest f) := fun h => not_isIpv6_iff.1 hflag (.inl h)
      have hc4 := carries4_of_not_only6 honly (hasLan_iff.1 hthere)
      exact ⟨hc4, (lan_of_carries4 hc4).1⟩
    · intro hflag hthere
      have honly : ¬ Only6 (replyNest f) := fun h => not_isIpv6_iff.1 hflag (.inr h)
      have hc4 := carries4_of_not_only6 honly (hasWan_iff.1 hthere)
      exact ⟨hc4, (wan_of_carries4 hc4).1⟩

/-! ## What is extracted -/

theorem store_eq_some {A : Type} {p : Option A} {v w : A} (h : store p v = some w) : w = v := by
  cases p with
  | none => cases h
  | some x => exact (Option.some.inj h).symm

/-- An extractor returns `1` under the condition `ok`, and then stores `lan` and `wan`. -/
theorem extract_iff {A : Type} {extract : TupleOut A → Int × TupleOut A} {ok : Prop}
    (hasLan hasWan : Prop) (lan wan : A) (P Q : A → Prop) (hret : ∀ out, (extract out).1 = 1 ↔ ok)
    (hstore : ok → ∀ out, (extract out).2.lanSrc = store out.lanSrc lan ∧
      (extract out).2.wanSrc = store out.wanSrc wan) :
    (∀ out, (extract out).1 = 1 →
      (∀ v, (extract out).2.lanSrc = some v → hasLan → P v) ∧
      (∀ v, (extract out).2.wanSrc = some v → hasWan → Q v)) ↔
    (ok → (hasLan → P lan) ∧ (hasWan → Q wan)) := by
  constructor
  · intro h hok
    -- Both addresses are asked for, so both are stored.
    have hstored := hstore hok ⟨some lan, none, some wan, none, none⟩
    rcases h _ ((hret _).2 hok) with ⟨hsrc, hdst⟩
    exact ⟨hsrc lan hstored.1, hdst wan hstored.2⟩
  · intro h out hone
    have hok := (hret out).1 hone
    rcases hstore hok out with ⟨hlan, hwan⟩
    refine ⟨?_, ?_⟩
    · intro v hv
      rw [hlan] at hv
      rw [store_eq_some hv]
      exact (h hok).1
    · intro v hv
      rw [hwan] at hv
      rw [store_eq_some hv]
      exact (h hok).2

theorem eventForensicsTuple_ret (ev : Event) (out : TupleOut UInt32) :
    (eventForensicsTuple (some ev) out).1 = 1 ↔
      ev.isIpv6 = false ∧ ev.hasLan = true ∧ ev.protocol ≠ 0 := by
  rw [eventForensicsTuple]
  cases ev.isIpv6 <;> simp

theorem eventForensicsTupleV6_ret (ev : Event) (out : TupleOut (Vector UInt8 16)) :
    (eventForensicsTupleV6 (some ev) out).1 = 1 ↔
      ev.isIpv6 = true ∧ ev.hasLan = true ∧ ev.protocol ≠ 0 := by
  rw [eventForensicsTupleV6]
  cases ev.isIpv6 <;> simp

theorem extracts_iff (f : List UInt8) (ev : Event) :
    Extracts f ev ↔
      (ev.isIpv6 = true ∧ ev.hasLan = true ∧ ev.protocol ≠ 0 →
        (ev.hasLan = true → From6 ctaIpV6Src (origNest f) ev.lanSrcIp6) ∧
        (ev.hasWan = true → From6 ctaIpV6Dst (replyNest f) ev.wanSrcIp6)) ∧
      (ev.isIpv6 = false ∧ ev.hasLan = true ∧ ev.protocol ≠ 0 →
        (ev.hasLan = true → From4 ctaIpV4Src (origNest f) ev.lanSrcIp) ∧
        (ev.hasWan = true → From4 ctaIpV4Dst (replyNest f) ev.wanSrcIp)) := by
  have h6 := extract_iff (ev.hasLan = true) (ev.hasWan = true) ev.lanSrcIp6 ev.wanSrcIp6
    (From6 ctaIpV6Src (origNest f)) (From6 ctaIpV6Dst (replyNest f))
    (eventForensicsTupleV6_ret ev) ?_
  have h4 := extract_iff (ev.hasLan = true) (ev.hasWan = true) ev.lanSrcIp ev.wanSrcIp
    (From4 ctaIpV4Src (origNest f)) (From4 ctaIpV4Dst (replyNest f))
    (eventForensicsTuple_ret ev) ?_
  · constructor
    · rintro ⟨htuple6, htuple4⟩
      exact ⟨h6.1 htuple6, h4.1 htuple4⟩
    · rintro ⟨htuple6, htuple4⟩
      exact ⟨h6.2 htuple6, h4.2 htuple4⟩
  -- Behind the test on the flag, the extractors store the fields of the event.
  · rintro ⟨hflag, _⟩ out
    simp [eventForensicsTuple, hflag]
  · rintro ⟨hflag, _⟩ out
    simp [eventForensicsTupleV6, hflag]

/-- One family: `lan` and `wan` say that a side is there, `P` and `Q` that its value was decoded
from an attribute, `P'` and `Q'` that the attribute is there. -/
theorem ends_iff {flag lan wan proto P P' Q Q' : Prop} (hlan : flag → lan → (P ↔ P'))
    (hwan : flag → wan → (Q ↔ Q')) :
    (flag ∧ lan ∧ proto → (lan → P) ∧ (wan → Q)) ↔
      (proto → flag → lan → P' ∧ (wan → Q')) := by
  constructor
  · intro h hproto hflag hthere
    rcases h ⟨hflag, hthere, hproto⟩ with ⟨hP, hQ⟩
    exact ⟨(hlan hflag hthere).1 (hP hthere), fun hback => (hwan hflag hback).1 (hQ hback)⟩
  · rintro h ⟨hflag, hthere, hproto⟩
    rcases h hproto hflag hthere with ⟨hP, hQ⟩
    exact ⟨fun _ => (hlan hflag hthere).2 hP, fun hback => (hwan hflag hback).2 (hQ hback)⟩

/-- Where the sides match, what is extracted is right exactly if the attributes are there. -/
theorem extracts_iff_hasEnds {f : List UInt8} (h : SidesMatch f (frameEvent f)) :
    Extracts f (frameEvent f) ↔ HasEnds f := by
  -- What is written is the address of the side, zero if the attribute is not there.
  have hlan6 : (frameEvent f).isIpv6 = true → (frameEvent f).hasLan = true →
      (From6 ctaIpV6Src (origNest f) (frameEvent f).lanSrcIp6 ↔
        ∃ payload, lastAttr ctaIpV6Src 16 (addrs (origNest f)) = some payload) := by
    intro hflag hthere
    rw [(h.lan6 hflag hthere).2.1, from6_addr6_iff]
  have hwan6 : (frameEvent f).isIpv6 = true → (frameEvent f).hasWan = true →
      (From6 ctaIpV6Dst (replyNest f) (frameEvent f).wanSrcIp6 ↔
        ∃ payload, lastAttr ctaIpV6Dst 16 (addrs (replyNest f)) = some payload) := by
    intro hflag hthere
    rw [(h.wan6 hflag hthere).2.1, from6_addr6_iff]
  have hlan4 : (frameEvent f).isIpv6 = false → (frameEvent f).hasLan = true →
      (From4 ctaIpV4Src (origNest f) (frameEvent f).lanSrcIp ↔
        ∃ payload, lastAttr ctaIpV4Src 4 (addrs (origNest f)) = some payload) := by
    intro hflag hthere
    rw [(h.lan4 hflag hthere).2.1, from4_addr4_iff]
  have hwan4 : (frameEvent f).isIpv6 = false → (frameEvent f).hasWan = true →
      (From4 ctaIpV4Dst (replyNest f) (frameEvent f).wanSrcIp ↔
        ∃ payload, lastAttr ctaIpV4Dst 4 (addrs (replyNest f)) = some payload) := by
    intro hflag hthere
    rw [(h.wan4 hflag hthere).2.1, from4_addr4_iff]
  have hproto : (frameEvent f).protocol ≠ 0 ↔ protoNum f ≠ 0 := by
    rw [protocol_eq]
  rw [extracts_iff, ends_iff hlan6 hwan6, ends_iff hlan4 hwan4, hproto, not_isIpv6_iff,
    isIpv6_iff, hasLan_iff, hasWan_iff]
  exact ⟨fun h => ⟨h.1, h.2⟩, fun h => ⟨h.ends6, h.ends4⟩⟩

theorem coherent_iff (f : List UInt8) :
    Coherent f (frameEvent f) ↔ OneFamily f ∧ HasEnds f := by
  constructor
  · rintro ⟨hsides, hextracts⟩
    exact ⟨(sidesMatch_iff f).1 hsides, (extracts_iff_hasEnds hsides).1 hextracts⟩
  · rintro ⟨hfamily, hends⟩
    have hsides := (sidesMatch_iff f).2 hfamily
    exact ⟨hsides, (extracts_iff_hasEnds hsides).2 hends⟩

/-! ## Synthetic frames -/

/-- A synthetic frame is IPv4, and what is extracted from its event are its address fields. -/
structure SynthCoherent (D : List UInt8) (ev : Event) : Prop where
  ipv4 : ev.isIpv6 = false
  tuple6 : ∀ out, (eventForensicsTupleV6 (some ev) out).1 ≠ 1
  tuple4 : ∀ out, (eventForensicsTuple (some ev) out).1 = 1 →
    (∀ v, (eventForensicsTuple (some ev) out).2.lanSrc = some v → v = be32At D 8) ∧
    (∀ v, (eventForensicsTuple (some ev) out).2.wanSrc = some v → v = be32At D 20)

theorem synthCoherent_synthEvent (D : List UInt8) : SynthCoherent D (synthEvent D) where
  ipv4 := rfl
  tuple6 := by
    intro out hone
    have hflag := ((eventForensicsTupleV6_ret _ out).1 hone).1
    cases hflag
  tuple4 := by
    intro out _
    exact ⟨fun v hv => store_eq_some hv, fun v hv => store_eq_some hv⟩

/-! ## The events of a buffer -/

/-- The buffer is fed to the context and the context is drained: each event that was not there
before is coherent with the frame or the message that it was decoded from. -/
def CoherentDelivery (D : List UInt8) (c : Ctx) : Prop :=
  ∀ c', feedInput .lp64 (some c) (some D) = .ok (0, some c') → ∀ es, c'.Drains es →
    ∀ i ev, es[c.queued.length + i]? = some ev →
      if Synthetic D then SynthCoherent D ev
      else ∃ f, (fullFrames D)[i]? = some f ∧ Coherent f ev

theorem coherentDelivery_of_synthetic {D : List UInt8} (hsynth : Synthetic D) (c : Ctx) :
    CoherentDelivery D c := by
  intro c' hfeed es hdrains i ev hev
  rw [feedInput_of_synthetic hsynth] at hfeed
  cases hfeed
  rw [hdrains.eq_queued {}, QueueCtx.getElem?_queued_pushAll] at hev
  have hmem : ev ∈ [synthEvent D] := List.mem_of_mem_take (List.mem_of_getElem? hev)
  cases List.mem_singleton.1 hmem
  rw [if_pos hsynth]
  exact synthCoherent_synthEvent D

/-- Unless the buffer is a synthetic frame or the call does not return, the events are coherent
exactly if every accepted message is of one family and has the ends that are extracted. -/
theorem coherentDelivery_iff {D : List UInt8} (hD : D.length < 2 ^ 63) (c : Ctx) :
    CoherentDelivery D c ↔
      Synthetic D ∨ (∃ f ∈ frames D, 2 ^ 32 - 4 < f.length) ∨
        ∀ f ∈ accepted D c, OneFamily f ∧ HasEnds f := by
  by_cases hsynth : Synthetic D
  · exact iff_of_true (coherentDelivery_of_synthetic hsynth c) (.inl hsynth)
  · have hmessages : CoherentDelivery D c ↔ EachDelivered D c Coherent := by
      simp only [CoherentDelivery, EachDelivered, if_neg hsynth]
    calc CoherentDelivery D c
        ↔ (∃ f ∈ frames D, maxMsg < f.length) ∨ ∀ f ∈ accepted D c, Coherent f (frameEvent f) :=
          hmessages.trans (eachDelivered_iff hD hsynth c Coherent)
      _ ↔ (∃ f ∈ frames D, 2 ^ 32 - 4 < f.length) ∨
            ∀ f ∈ accepted D c, OneFamily f ∧ HasEnds f :=
          or_congr Iff.rfl (forall₂_congr fun f _ => coherent_iff f)
      _ ↔ _ := (or_iff_right hsynth).symm

/-- Connections of either family with both of their ends, and messages without addresses. -/
theorem coherentDelivery_trackedMessages :
    CoherentDelivery (padMsgs trackedMessages) (create .collector) := by
  have hfamily : ∀ f ∈ trackedMessages, ¬ (Carries4 (origNest f) ∧ Only6 (replyNest f)) ∧
      ¬ (Carries4 (replyNest f) ∧ Only6 (origNest f)) := by
    decide +kernel
  have hends : ∀ f ∈ trackedMessages, Carries4 (origNest f) ∨ Carries6 (origNest f) →
      if Only6 (origNest f) ∨ Only6 (replyNest f) then
        (lastAttr ctaIpV6Src 16 (addrs (origNest f))).isSome ∧
          (lastAttr ctaIpV6Dst 16 (addrs (replyNest f))).isSome
      else (lastAttr ctaIpV4Src 4 (addrs (origNest f))).isSome ∧
        (lastAttr ctaIpV4Dst 4 (addrs (replyNest f))).isSome := by
    decide +kernel
  have hlen : (padMsgs trackedMessages).length < 2 ^ 63 := by decide +kernel
  rw [coherentDelivery_iff hlen]
  refine .inr (.inr fun f hf => ?_)
  have hmem := mem_of_mem_accepted padded_trackedMessages hf
  refine ⟨⟨fun h4 h6 => absurd ⟨h4, h6⟩ (hfamily f hmem).1,
    fun h4 h6 => absurd ⟨h4, h6⟩ (hfamily f hmem).2⟩, ⟨fun _ h6 haddr => ?_, fun _ h6 haddr => ?_⟩⟩
  · have hsome := hends f hmem haddr
    rw [if_pos h6, Option.isSome_iff_exists, Option.isSome_iff_exists] at hsome
    exact ⟨hsome.1, fun _ => hsome.2⟩
  · have hsome := hends f hmem haddr
    rw [if_neg h6, Option.isSome_iff_exists, Option.isSome_iff_exists] at hsome
    exact ⟨hsome.1, fun _ => hsome.2⟩

/-- A message with the source `10.0.0.1` in its original tuple and the destination `2001:db8::1` in
its reply tuple. -/
def mixedMessage : List UInt8 :=
  [64, 0, 0, 0, 0, 1, 0, 0, 0, 0, 0, 0, 0, 0, 0, 0, 2, 0, 0, 0,
    16, 0, 1, 0x80, 12, 0, 1, 0x80, 8, 0, 1, 0, 10, 0, 0, 1,
    28, 0, 2, 0x80, 24, 0, 1, 0x80, 20, 0, 4, 0, 0x20, 0x01, 0x0D, 0xB8, 0, 0, 0, 0, 0, 0, 0, 0,
    0, 0, 0, 1]

/-- The event says that its LAN side is IPv6, which was decoded from an IPv4 address. -/
theorem mixedMessage_incoherent : ¬ CoherentDelivery mixedMessage (create .collector) := by
  have hsynth : ¬ Synthetic mixedMessage := by decide
  have hshort : ∀ f ∈ frames mixedMessage, ¬ maxMsg < f.length := by decide
  have hmem : mixedMessage ∈ accepted mixedMessage (create .collector) := by decide
  have hflag : (frameEvent mixedMessage).isIpv6 = true := by decide
  have hthere : (frameEvent mixedMessage).hasLan = true := by decide
  have horig : ¬ Carries6 (origNest mixedMessage) := by decide
  intro hdelivery
  simp only [CoherentDelivery, if_neg hsynth] at hdelivery
  rcases (eachDelivered_iff (by decide) hsynth _ _).1 hdelivery with ⟨f, hf, hlong⟩ | hall
  · exact hshort f hf hlong
  · exact horig ((hall _ hmem).sides.lan6 hflag hthere).1

end Nfct
end Netdiag
