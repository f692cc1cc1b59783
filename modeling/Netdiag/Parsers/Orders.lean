import Netdiag.Netlink.Agree
import Netdiag.Nfct.Encode
import Netdiag.Nfct.Feed
import Netdiag.Nfct.Fields
import Netdiag.Nl80211.Feed
import Netdiag.Nl80211.Fields
import Netdiag.Nl80211.Streams
import Netdiag.Parsers.Records

/-!
# Orders — the order of the attributes does not matter

What the two parsers read of a nest, as rules in the sense of `Agree`: each type for itself, but
the two rate types of `parse_rate_info` together, as they decide the same field.  Buffers whose
messages agree under these rules leave a context in the same state.
-/

namespace Netdiag

open Lib

instance (a : Attr) : Decidable a.Fits :=
  inferInstanceAs (Decidable (_ ≤ _))

theorem fullFrames_putMsg (h : MsgHeader) {body : List UInt8}
    (hlen : 20 + body.length < 2 ^ 32) : fullFrames (putMsg h body) = [putMsg h body] := by
  have hframes : frames (putMsg h body) = [putMsg h body] :=
    Framing.split_of_packs (.last (item_putMsg h hlen))
  have hfull : 20 ≤ (putMsg h body).length := by
    rw [length_putMsg]
    exact Nat.le_add_right 20 _
  rw [fullFrames, hframes, List.filter_singleton, decide_eq_true hfull]
  rfl

theorem msgAttrs_putMsg (h : MsgHeader) (body : List UInt8) :
    msgAttrs (putMsg h body) = attrs body := by
  rw [msgAttrs, drop_putMsg]

/-! ## Conntrack messages -/

namespace Nfct

def ipRules : List Rule :=
  [.value ctaIpV4Src 4, .value ctaIpV4Dst 4, .value ctaIpV6Src 16, .value ctaIpV6Dst 16]

def protoRules : List Rule :=
  [.value ctaProtoNum 1, .value ctaProtoSrcPort 2, .value ctaProtoDstPort 2]

def tupleRules : List Rule :=
  [.nest ctaTupleIp ipRules, .nest ctaTupleProto protoRules]

/-- What `parse_ct_attrs` reads. -/
def ctRules : List Rule :=
  [.nest ctaTupleOrig tupleRules, .nest ctaTupleReply tupleRules, .value ctaMark 4,
    .value ctaZone 2, .value ctaId 4, .value ctaStatus 4]

variable {as bs : List Attr}

theorem setIp_congr (h : Agree ipRules as bs) (t : Tuple) : t.setIp as = t.setIp bs := by
  have hsrc : lastAttr ctaIpV4Src 4 as = lastAttr ctaIpV4Src 4 bs :=
    h.lastAttr_eq (by simp [ipRules])
  have hdst : lastAttr ctaIpV4Dst 4 as = lastAttr ctaIpV4Dst 4 bs :=
    h.lastAttr_eq (by simp [ipRules])
  have hsrc6 : lastAttr ctaIpV6Src 16 as = lastAttr ctaIpV6Src 16 bs :=
    h.lastAttr_eq (by simp [ipRules])
  have hdst6 : lastAttr ctaIpV6Dst 16 as = lastAttr ctaIpV6Dst 16 bs :=
    h.lastAttr_eq (by simp [ipRules])
  rw [Tuple.setIp, hsrc, hdst, hsrc6, hdst6]
  rfl

theorem setProto_congr (h : Agree protoRules as bs) (t : Tuple) :
    t.setProto as = t.setProto bs := by
  have hnum : lastAttr ctaProtoNum 1 as = lastAttr ctaProtoNum 1 bs :=
    h.lastAttr_eq (by simp [protoRules])
  have hsrc : lastAttr ctaProtoSrcPort 2 as = lastAttr ctaProtoSrcPort 2 bs :=
    h.lastAttr_eq (by simp [protoRules])
  have hdst : lastAttr ctaProtoDstPort 2 as = lastAttr ctaProtoDstPort 2 bs :=
    h.lastAttr_eq (by simp [protoRules])
  rw [Tuple.setProto, hnum, hsrc, hdst]
  rfl

theorem tupleOf_congr {xs ys : List UInt8} (h : AgreeIn tupleRules xs ys) :
    tupleOf xs = tupleOf ys := by
  have hip : Agree ipRules (nested ctaTupleIp (attrs xs)) (nested ctaTupleIp (attrs ys)) :=
    h.nested (by simp [tupleRules])
  have hproto : Agree protoRules (nested ctaTupleProto (attrs xs))
      (nested ctaTupleProto (attrs ys)) :=
    h.nested (by simp [tupleRules])
  rw [tupleOf_eq, tupleOf_eq, setIp_congr hip, setProto_congr hproto]

theorem lastTuple_congr (h : Agree ctRules as bs) {type : UInt16}
    (hrule : Rule.nest type tupleRules ∈ ctRules) : lastTuple type as = lastTuple type bs :=
  h.lastAttr_elim hrule (fun _ _ => tupleOf_congr) {}

theorem ctEvent_congr (h : Agree ctRules as bs) (ev : Event) : ctEvent as ev = ctEvent bs ev := by
  have hmark : lastAttr ctaMark 4 as = lastAttr ctaMark 4 bs := h.lastAttr_eq (by simp [ctRules])
  have hzone : lastAttr ctaZone 2 as = lastAttr ctaZone 2 bs := h.lastAttr_eq (by simp [ctRules])
  have hid : lastAttr ctaId 4 as = lastAttr ctaId 4 bs := h.lastAttr_eq (by simp [ctRules])
  have hstatus : lastAttr ctaStatus 4 as = lastAttr ctaStatus 4 bs :=
    h.lastAttr_eq (by simp [ctRules])
  have hset : ev.setCt as = ev.setCt bs := by
    rw [Event.setCt, hmark, hzone, hid, hstatus]
    rfl
  rw [ctEvent_eq, ctEvent_eq, lastTuple_congr h (by simp [ctRules]),
    lastTuple_congr h (by simp [ctRules]), hset]

theorem reflexive_ipRules : Reflexive ipRules :=
  reflexive_value (reflexive_value (reflexive_value
    (reflexive_value reflexive_nil _ _) _ _) _ _) _ _

theorem reflexive_protoRules : Reflexive protoRules :=
  reflexive_value (reflexive_value (reflexive_value reflexive_nil _ _) _ _) _ _

theorem reflexive_tupleRules : Reflexive tupleRules :=
  reflexive_nest (reflexive_nest reflexive_nil reflexive_protoRules _) reflexive_ipRules _

theorem reflexive_ctRules : Reflexive ctRules := by
  have hvalues : Reflexive [.value ctaMark 4, .value ctaZone 2, .value ctaId 4,
      .value ctaStatus 4] :=
    reflexive_value (reflexive_value (reflexive_value
      (reflexive_value reflexive_nil _ _) _ _) _ _) _ _
  exact reflexive_nest (reflexive_nest hvalues reflexive_tupleRules _) reflexive_tupleRules _

/-- The event of the message has an address. -/
def Addressed (as : List Attr) : Prop :=
  ((lastTuple ctaTupleOrig as).hasIp || (lastTuple ctaTupleOrig as).hasIp6 ||
    ((lastTuple ctaTupleReply as).hasIp || (lastTuple ctaTupleReply as).hasIp6)) = true

/-- The messages have the same header, as far as it is read, and attributes that agree.  The length
is read for the text of an event without addresses. -/
structure MsgAgree (f g : List UInt8) : Prop where
  type : nlmsgType f = nlmsgType g
  flags : nlmsgFlags f = nlmsgFlags g
  attrs : Agree ctRules (msgAttrs f) (msgAttrs g)
  len : nlmsgLen f = nlmsgLen g ∨ Addressed (msgAttrs f)

theorem labelEvent_of_addressed {as : List Attr} (h : Addressed as) (type : UInt16) (len : UInt32)
    (ev : Event) : labelEvent type len (ctEvent as ev) = ctEvent as ev := by
  rw [ctEvent_eq, applyTuples_eq]
  -- An event without addresses has neither flag, but the tuples of an addressed one set one.
  refine if_neg fun hnone => ?_
  simp only [Bool.and_eq_true, Bool.not_eq_true', Bool.or_eq_false_iff] at hnone
  rcases hnone with ⟨⟨⟨horig, horig6⟩, _⟩, ⟨hreply, hreply6⟩, _⟩
  rw [Addressed, horig, horig6, hreply, hreply6] at h
  cases h

theorem frameEvent_congr {f g : List UInt8} (h : MsgAgree f g) : frameEvent f = frameEvent g := by
  rw [frameEvent, frameEvent, h.type, h.flags, ← ctEvent_congr h.attrs]
  -- The length only gets into the text of an event without addresses.
  rcases h.len with hlen | haddr
  · rw [hlen]
  · rw [labelEvent_of_addressed haddr, labelEvent_of_addressed haddr]

/-- The buffers hold messages that agree one by one. -/
structure Reordered (D E : List UInt8) : Prop where
  left : ¬ Synthetic D
  right : ¬ Synthetic E
  msgs : List.Forall₂ MsgAgree (fullFrames D) (fullFrames E)

theorem feedEvents_congr {D E : List UInt8} (h : Reordered D E) : feedEvents D = feedEvents E := by
  rw [feedEvents, feedEvents, if_neg h.left, if_neg h.right]
  have hR : ∀ f g, MsgAgree f g → frameEvent g = frameEvent f := by
    intro f g hmsg
    exact (frameEvent_congr hmsg).symm
  exact (map_of_forall₂ hR h.msgs).symm

/-- Buffers that differ in the order of the attributes, on any level, or in attributes that are
not read, leave a context in the same state. -/
theorem feedInput_reordered {D E : List UInt8} (h : Reordered D E) (hD : D.length < 2 ^ 63)
    (hE : E.length < 2 ^ 63) (hshort : ∀ f ∈ frames D, f.length ≤ maxMsg)
    (hshort' : ∀ f ∈ frames E, f.length ≤ maxMsg) (c : Ctx) :
    feedInput .lp64 (some c) (some D) = feedInput .lp64 (some c) (some E) := by
  rw [feedInput_eq hD hshort, feedInput_eq hE hshort', feedEvents_congr h]

/-- Attributes laid out in one message each. -/
theorem reordered_putMsg (h : MsgHeader) {as bs : List Attr} (hfits : ∀ a ∈ as, a.Fits)
    (hfits' : ∀ b ∈ bs, b.Fits) (hlen : 20 + (putAll as).length < 0x5443464E)
    (hsame : (putAll bs).length = (putAll as).length)
    (hagree : Agree ctRules (as.map Attr.unflag) (bs.map Attr.unflag)) :
    Reordered (putMsg h (putAll as)) (putMsg h (putAll bs)) where
  left := not_synthetic_of_size (item_putMsg h (by omega)) (by rw [length_putMsg]; exact hlen)
  right :=
    not_synthetic_of_size (item_putMsg h (by omega)) (by rw [length_putMsg, hsame]; exact hlen)
  msgs := by
    rw [fullFrames_putMsg h (by omega), fullFrames_putMsg h (by omega)]
    refine .cons ⟨?_, ?_, ?_, .inl ?_⟩ .nil
    · rw [nlmsgType_putMsg, nlmsgType_putMsg]
    · rw [nlmsgFlags_putMsg, nlmsgFlags_putMsg]
    · rw [msgAttrs_putMsg, msgAttrs_putMsg, attrs_putAll hfits, attrs_putAll hfits']
      exact hagree
    · rw [nlmsgLen_putMsg, nlmsgLen_putMsg, hsame]

def addressAttrs : List Attr :=
  [⟨ctaIpV4Src, [10, 0, 0, 1]⟩, ⟨ctaIpV4Dst, [10, 0, 0, 2]⟩]

def portAttrs : List Attr :=
  [⟨ctaProtoNum, [6]⟩, ⟨ctaProtoSrcPort, [0x9c, 0x40]⟩, ⟨ctaProtoDstPort, [0, 80]⟩]

/-- The tuple is in the order of the headers, or in the reverse one on both of its levels. -/
def zoneTuple (reversed : Bool) : List UInt8 :=
  if reversed then
    putAll (tupleAttrs (putAll addressAttrs.reverse) (putAll portAttrs.reverse)).reverse
  else putAll (tupleAttrs (putAll addressAttrs) (putAll portAttrs))

def zoneAttrs (reversed : Bool) : List Attr :=
  [⟨ctaTupleOrig, zoneTuple reversed⟩, ⟨ctaMark, [0, 0, 0, 7]⟩, ⟨ctaZone, [0, 3]⟩]

theorem agree_zoneTuple : AgreeIn tupleRules (zoneTuple false) (zoneTuple true) := by
  have hip : AgreeIn ipRules (putAll addressAttrs) (putAll addressAttrs.reverse) :=
    .putAll (by decide) (by decide)
      (.perm reflexive_ipRules (List.reverse_perm addressAttrs).symm (by decide))
  have hproto : AgreeIn protoRules (putAll portAttrs) (putAll portAttrs.reverse) :=
    .putAll (by decide) (by decide)
      (.perm reflexive_protoRules (List.reverse_perm portAttrs).symm (by decide))
  have hips : Agree tupleRules [⟨ctaTupleIp, putAll addressAttrs⟩]
      [⟨ctaTupleIp, putAll addressAttrs.reverse⟩] :=
    .nest hip (by simp +decide [tupleRules, Rule.nest])
  have hprotos : Agree tupleRules [⟨ctaTupleProto, putAll portAttrs⟩]
      [⟨ctaTupleProto, putAll portAttrs.reverse⟩] :=
    .nest hproto (by simp +decide [tupleRules, Rule.nest])
  have hall : Agree tupleRules
      ((tupleAttrs (putAll addressAttrs) (putAll portAttrs)).map Attr.unflag)
      ((tupleAttrs (putAll addressAttrs.reverse) (putAll portAttrs.reverse)).reverse.map
        Attr.unflag) := hips.append_comm hprotos (by decide)
  exact .putAll (by decide) (by decide) hall

/-- The order of the attributes is reversed on every level. -/
theorem feedInput_reordered_zone :
    feedInput .lp64 (some (create .collector))
        (some (putMsg newHeader (putAll (zoneAttrs false)))) =
      feedInput .lp64 (some (create .collector))
        (some (putMsg newHeader (putAll (zoneAttrs true).reverse))) := by
  have htuples : Agree ctRules [⟨ctaTupleOrig, zoneTuple false⟩] [⟨ctaTupleOrig, zoneTuple true⟩] :=
    .nest agree_zoneTuple (by simp +decide [ctRules, Rule.nest, Rule.value])
  have hvalues : Agree ctRules [⟨ctaMark, [0, 0, 0, 7]⟩, ⟨ctaZone, [0, 3]⟩]
      [⟨ctaZone, [0, 3]⟩, ⟨ctaMark, [0, 0, 0, 7]⟩] :=
    .perm reflexive_ctRules (.swap _ _ _) (by decide)
  have hall : Agree ctRules ((zoneAttrs false).map Attr.unflag)
      ((zoneAttrs true).reverse.map Attr.unflag) := htuples.append_comm hvalues (by decide)
  refine feedInput_reordered (reordered_putMsg newHeader ?_ ?_ ?_ ?_ hall) ?_ ?_ ?_ ?_ _ <;>
    decide +kernel

end Nfct

/-! ## Station messages -/

namespace Nl80211

/-- Both types of rates decide the same field, so their order among each other matters. -/
def rateRule : Rule where
  types := rateTypes
  min := 1
  Same := Eq

def staRules : List Rule :=
  [.value staInfoSignal 1, .value staInfoSignalAvg 1, .value staInfoTxRetries 4,
    .value staInfoTxFailed 4, .value staInfoRxBytes 4, .value staInfoTxBytes 4,
    .nest staInfoTxBitrate [rateRule]]

/-- What `parse_top_attrs` reads. -/
def topRules : List Rule :=
  [.value attrMac 6, .value attrWiphyFreq 4, .nest attrStaInfo staRules]

variable {as bs : List Attr}

theorem setRate_congr (h : Agree [rateRule] as bs) (ev : Event) :
    ev.setRate as = ev.setRate bs := by
  have hlast : ∀ cs, lastMcs cs = (payloads rateRule cs).getLast? := by
    intro cs
    rw [payloads_eq_filter]
    rfl
  rw [Event.setRate, Event.setRate, hlast, hlast, h.payloads_eq (List.mem_singleton_self _) rfl]

theorem setSta_congr (h : Agree staRules as bs) (ev : Event) : ev.setSta as = ev.setSta bs := by
  have hrate : Agree [rateRule] (nested staInfoTxBitrate as) (nested staInfoTxBitrate bs) :=
    h.nested (by simp [staRules])
  have hsignal : lastAttr staInfoSignal 1 as = lastAttr staInfoSignal 1 bs :=
    h.lastAttr_eq (by simp [staRules])
  have havg : lastAttr staInfoSignalAvg 1 as = lastAttr staInfoSignalAvg 1 bs :=
    h.lastAttr_eq (by simp [staRules])
  have hretries : lastAttr staInfoTxRetries 4 as = lastAttr staInfoTxRetries 4 bs :=
    h.lastAttr_eq (by simp [staRules])
  have hfailed : lastAttr staInfoTxFailed 4 as = lastAttr staInfoTxFailed 4 bs :=
    h.lastAttr_eq (by simp [staRules])
  have hrx : lastAttr staInfoRxBytes 4 as = lastAttr staInfoRxBytes 4 bs :=
    h.lastAttr_eq (by simp [staRules])
  have htx : lastAttr staInfoTxBytes 4 as = lastAttr staInfoTxBytes 4 bs :=
    h.lastAttr_eq (by simp [staRules])
  rw [Event.setSta, setRate_congr hrate, hsignal, havg, hretries, hfailed, hrx, htx]
  rfl

theorem setTop_congr (h : Agree topRules as bs) (ev : Event) : ev.setTop as = ev.setTop bs := by
  have hsta : Agree staRules (nested attrStaInfo as) (nested attrStaInfo bs) :=
    h.nested (by simp [topRules])
  have hmac : lastAttr attrMac 6 as = lastAttr attrMac 6 bs := h.lastAttr_eq (by simp [topRules])
  have hfreq : lastAttr attrWiphyFreq 4 as = lastAttr attrWiphyFreq 4 bs :=
    h.lastAttr_eq (by simp [topRules])
  rw [Event.setTop, setSta_congr hsta, hmac, hfreq]
  rfl

theorem stationEvent_congr (h : Agree topRules as bs) : stationEvent as = stationEvent bs := by
  rw [stationEvent_eq, stationEvent_eq, setTop_congr h]

theorem reflexive_rateRule : Reflexive [rateRule] :=
  List.forall_mem_singleton.2 fun _ => rfl

theorem reflexive_staRules : Reflexive staRules := by
  have hrate : Reflexive [.nest staInfoTxBitrate [rateRule]] :=
    reflexive_nest reflexive_nil reflexive_rateRule _
  exact reflexive_value (reflexive_value (reflexive_value (reflexive_value (reflexive_value
    (reflexive_value hrate _ _) _ _) _ _) _ _) _ _) _ _

theorem reflexive_topRules : Reflexive topRules :=
  reflexive_value (reflexive_value (reflexive_nest reflexive_nil reflexive_staRules _) _ _) _ _

def MsgAgree (f g : List UInt8) : Prop :=
  Agree topRules (msgAttrs f) (msgAttrs g)

/-- The buffers hold messages that agree one by one, or they are streams of attributes of the same
length that agree.  The length is read for the text of an event without a name. -/
inductive Reordered (D E : List UInt8) : Prop where
  | msgs : ¬ Synthetic D → ¬ Synthetic E → ¬ Bare D → ¬ Bare E →
      List.Forall₂ MsgAgree (fullFrames D) (fullFrames E) → Reordered D E
  | bare : ¬ Synthetic D → ¬ Synthetic E → Bare D → Bare E → D.length = E.length →
      AgreeIn topRules D E → Reordered D E

theorem feedEvents_congr {D E : List UInt8} (h : Reordered D E) : feedEvents D = feedEvents E := by
  cases h with
  | msgs hD hE hbareD hbareE hmsgs =>
      have hR : ∀ f g, MsgAgree f g → frameEvent g = frameEvent f := by
        intro f g hmsg
        exact (stationEvent_congr hmsg).symm
      rw [feedEvents, feedEvents, if_neg hD, if_neg hE, if_neg hbareD, if_neg hbareE,
        map_of_forall₂ hR hmsgs]
  | bare hD hE hbareD hbareE hlen hagree =>
      rw [feedEvents, feedEvents, if_neg hD, if_neg hE, if_pos hbareD, if_pos hbareE, bareEvent,
        bareEvent, stationEvent_congr hagree, hlen]

/-- Buffers that differ in the order of the attributes, on any level, or in attributes that are
not read, leave a context in the same state. -/
theorem parseFeedInput_reordered {D E : List UInt8} (h : Reordered D E) (hD : D.length < 2 ^ 63)
    (hE : E.length < 2 ^ 63) (hshort : ∀ f ∈ frames D, f.length ≤ maxMsg)
    (hshort' : ∀ f ∈ frames E, f.length ≤ maxMsg) (c : Ctx) :
    parseFeedInput .lp64 (some c) (some D) = parseFeedInput .lp64 (some c) (some E) := by
  rw [parseFeedInput_eq hD hshort, parseFeedInput_eq hE hshort', feedEvents_congr h]

/-- Rates of both types, which keep their order, with an attribute that is not read and without. -/
def rateNest (reversed : Bool) : List UInt8 :=
  if reversed then putAll [⟨5, [1, 2, 0, 0]⟩, ⟨rateInfoMcs, [7]⟩, ⟨rateInfoVhtMcs, [9]⟩]
  else putAll [⟨rateInfoMcs, [7]⟩, ⟨rateInfoVhtMcs, [9]⟩]

def staNest (reversed : Bool) : List UInt8 :=
  if reversed then putAll [⟨staInfoSignal, [0xce]⟩, ⟨staInfoTxBitrate, rateNest true⟩]
  else putAll [⟨staInfoTxBitrate, rateNest false⟩, ⟨staInfoSignal, [0xce]⟩]

def macAttrs (reversed : Bool) : List Attr :=
  [⟨attrStaInfo, staNest reversed⟩, ⟨attrMac, [0xaa, 0xbb, 0xcc, 0xdd, 0xee, 0xff]⟩,
    ⟨attrWiphyFreq, [0x6c, 9, 0, 0]⟩]

theorem agree_staNest : AgreeIn staRules (staNest false) (staNest true) := by
  have hrate : AgreeIn [rateRule] (rateNest false) (rateNest true) :=
    .putAll (by decide) (by decide) (.insert reflexive_rateRule [] _ (by decide))
  have hrates : Agree staRules [⟨staInfoTxBitrate, rateNest false⟩]
      [⟨staInfoTxBitrate, rateNest true⟩] :=
    .nest hrate (by simp +decide [staRules, Rule.nest, Rule.value])
  have hsignal : Agree staRules [⟨staInfoSignal, [0xce]⟩] [⟨staInfoSignal, [0xce]⟩] :=
    .refl reflexive_staRules _
  exact .putAll (by decide) (by decide) (hrates.append_comm hsignal (by decide))

/-- The order of the attributes is reversed on every level, as far as it may be. -/
theorem parseFeedInput_reordered_mac :
    parseFeedInput .lp64 (some (parseCreate .collector))
        (some (putMsg zeroHeader (putAll (macAttrs false)))) =
      parseFeedInput .lp64 (some (parseCreate .collector))
        (some (putMsg zeroHeader (putAll (macAttrs true).reverse))) := by
  have hstas : Agree topRules [⟨attrStaInfo, staNest false⟩] [⟨attrStaInfo, staNest true⟩] :=
    .nest agree_staNest (by simp +decide [topRules, Rule.nest, Rule.value])
  have hvalues : Agree topRules
      [⟨attrMac, [0xaa, 0xbb, 0xcc, 0xdd, 0xee, 0xff]⟩, ⟨attrWiphyFreq, [0x6c, 9, 0, 0]⟩]
      [⟨attrWiphyFreq, [0x6c, 9, 0, 0]⟩, ⟨attrMac, [0xaa, 0xbb, 0xcc, 0xdd, 0xee, 0xff]⟩] :=
    .perm reflexive_topRules (.swap _ _ _) (by decide)
  have hall : Agree topRules ((macAttrs false).map Attr.unflag)
      ((macAttrs true).reverse.map Attr.unflag) := hstas.append_comm hvalues (by decide)
  refine parseFeedInput_reordered (.msgs ?_ ?_ ?_ ?_ ?_) ?_ ?_ ?_ ?_ _
  case refine_5 =>
    rw [fullFrames_putMsg zeroHeader (by decide +kernel),
      fullFrames_putMsg zeroHeader (by decide +kernel)]
    refine .cons ?_ .nil
    rw [MsgAgree, msgAttrs_putMsg, msgAttrs_putMsg, attrs_putAll (by decide),
      attrs_putAll (by decide)]
    exact hall
  all_goals decide +kernel

end Nl80211
end Netdiag
