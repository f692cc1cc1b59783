import Netdiag.Nfct.Alias
import Netdiag.Nfct.Synth

/-!
# Image — which connection events a caller can be given

The events of an arbitrary buffer obey laws: a direction has addresses of one family, a field
without its flag is zero, and only a deletion by id alone has a reason.  There are no other laws.
An event of a connection is returned in some run exactly if it keeps them, or is the one that a
synthetic `DESTROY` frame makes (`connection_returned_iff`).
-/

namespace Netdiag
namespace Nfct

open Lib

/-! ## The laws -/

/-- The addresses of one direction of an event, and whether there are any. -/
structure Ends where
  has : Bool
  src : UInt32
  dst : UInt32
  src6 : Vector UInt8 16
  dst6 : Vector UInt8 16

def Event.lan (ev : Event) : Ends where
  has := ev.hasLan
  src := ev.lanSrcIp
  dst := ev.lanDstIp
  src6 := ev.lanSrcIp6
  dst6 := ev.lanDstIp6

def Event.wan (ev : Event) : Ends where
  has := ev.hasWan
  src := ev.wanSrcIp
  dst := ev.wanDstIp
  src6 := ev.wanSrcIp6
  dst6 := ev.wanDstIp6

/-- The addresses are of one family, IPv6 if `six` is set, and those of the other are zero. -/
def Ends.Of (six : Bool) (e : Ends) : Prop :=
  if six then e.has = true ∧ e.src = 0 ∧ e.dst = 0
  else (e.src6 = Vector.replicate 16 0 ∧ e.dst6 = Vector.replicate 16 0) ∧
    (e.has = false → e.src = 0 ∧ e.dst = 0)

/-- Type and reason are those of a connection: a deletion without addresses says what it deletes. -/
def Event.Labelled (ev : Event) : Prop :=
  if ev.hasLan || ev.hasWan then
    ev.reason = "" ∧
      if ev.isDestroy then ev.type = .eventDestroy
      else ev.type = .eventNew ∨ ev.type = .eventUpdate
  else (ev.isDestroy = true ∧ ev.hasId = true) ∧ ev.type = .eventDestroy ∧
    ev.reason = s!"DESTROY id={ev.id} (no tuples)"

/-- The laws of the fields that a message fills. -/
structure Event.Coherent (ev : Event) : Prop where
  families : ∃ lan6 wan6, ev.lan.Of lan6 ∧ ev.wan.Of wan6 ∧ ev.isIpv6 = (lan6 || wan6)
  mark : ev.mark.toNat < 2 ^ 32
  zone : ev.zone.toNat < 2 ^ 16
  id : ev.hasId = false → ev.id = 0
  status : ev.hasStatus = false → ev.status = 0

/-- What a message can say of a connection. -/
def Event.Announces (ev : Event) : Prop :=
  ev.Coherent ∧ ev.Labelled

/-- The event of a synthetic `DESTROY` frame, which does not say that it is one in its flag. -/
def Event.SynthDestroy (ev : Event) : Prop :=
  ∃ r : NatRec, r.kind = .destroy ∧ ev = r.event false

/-! ## The events of a buffer keep them -/

theorem lt_of_toUInt64 (v : UInt32) : v.toUInt64.toNat < 2 ^ 32 := by
  rw [UInt32.toNat_toUInt64]
  exact v.toNat_lt

theorem lt_of_toUInt32 (v : UInt16) : v.toUInt32.toNat < 2 ^ 16 := by
  rw [UInt16.toNat_toUInt32]
  exact v.toNat_lt

/-- One direction, as `apply_tuples` leaves it. -/
theorem Ends.of_tuple (t : Tuple) (src dst : UInt32) (src6 dst6 : Vector UInt8 16) :
    Ends.Of (!t.hasIp && t.hasIp6)
      { has := t.hasIp || t.hasIp6 || false
        src := if t.hasIp then src else 0
        dst := if t.hasIp then dst else 0
        src6 := if !t.hasIp && t.hasIp6 then src6 else Vector.replicate 16 0
        dst6 := if !t.hasIp && t.hasIp6 then dst6 else Vector.replicate 16 0 } := by
  cases hip : t.hasIp <;> cases hip6 : t.hasIp6 <;> simp [Ends.Of]

/-- The event of a message before it is labelled. -/
theorem decoded_eq (f : List UInt8) :
    decoded f = applyTuples (tupleOf (origNest f)) (tupleOf (replyNest f))
      { type := (eventOfHeader (nlmsgType f) (nlmsgFlags f)).type
        isDestroy := (eventOfHeader (nlmsgType f) (nlmsgFlags f)).isDestroy
        mark := (lastAttr ctaMark 4 (msgAttrs f)).elim 0 fun xs => (be32At xs 0).toUInt64
        zone := (lastAttr ctaZone 2 (msgAttrs f)).elim 0 fun xs => (be16At xs 0).toUInt32
        id := (lastAttr ctaId 4 (msgAttrs f)).elim 0 (be32At · 0)
        status := (lastAttr ctaStatus 4 (msgAttrs f)).elim 0 (be32At · 0)
        hasId := (lastAttr ctaId 4 (msgAttrs f)).isSome
        hasStatus := (lastAttr ctaStatus 4 (msgAttrs f)).isSome } := by
  rw [decoded, eventOfHeader_eq]
  rfl

/-- The fields keep their laws in every message, whatever its bytes are. -/
theorem coherent_decoded (f : List UInt8) : (decoded f).Coherent := by
  rw [decoded_eq, applyTuples_eq]
  generalize tupleOf (origNest f) = orig
  generalize tupleOf (replyNest f) = reply
  refine ⟨⟨_, _, Ends.of_tuple orig _ _ _ _, Ends.of_tuple reply _ _ _ _, ?_⟩, ?_, ?_, ?_, ?_⟩ <;>
    dsimp only
  · rw [Bool.or_false, Bool.or_comm]
  · cases lastAttr ctaMark 4 (msgAttrs f) with
    | none => decide
    | some xs => exact lt_of_toUInt64 _
  · cases lastAttr ctaZone 2 (msgAttrs f) with
    | none => decide
    | some xs => exact lt_of_toUInt32 _
  · cases lastAttr ctaId 4 (msgAttrs f) <;> simp
  · cases lastAttr ctaStatus 4 (msgAttrs f) <;> simp

/-- The laws say nothing of the reason. -/
theorem Event.Coherent.relabel {ev : Event} (h : ev.Coherent) (reason : String) :
    { ev with reason := reason }.Coherent :=
  ⟨h.families, h.mark, h.zone, h.id, h.status⟩

theorem announces_frameEvent {f : List UInt8} (h : (frameEvent f).Connection) :
    (frameEvent f).Announces := by
  have hcoherent := coherent_decoded f
  have htype := decoded_type f
  have hreason : (decoded f).reason = "" := by rw [decoded_eq, applyTuples_eq]
  rw [← decoded_isDestroy] at htype
  rw [frameEvent_eq, labelEvent] at h ⊢
  -- An event without addresses is one of a connection only if it deletes one by its id.
  cases hlan : (decoded f).hasLan || (decoded f).hasWan with
  | true =>
      have hnot : ¬ (!(decoded f).hasLan && !(decoded f).hasWan) = true := by
        rw [← Bool.not_or, hlan]
        decide
      rw [if_neg hnot]
      refine ⟨hcoherent, ?_⟩
      rw [Event.Labelled, if_pos hlan]
      refine ⟨hreason, ?_⟩
      rcases htype with ⟨htype, hdel⟩ | ⟨htype, hdel⟩
      · rw [if_pos hdel]
        exact htype
      · rw [if_neg hdel]
        exact htype
  | false =>
      have hnone : (!(decoded f).hasLan && !(decoded f).hasWan) = true := by
        rw [← Bool.not_or, hlan]
        rfl
      rw [if_pos hnone] at h ⊢
      by_cases hid : (decoded f).isDestroy && (decoded f).hasId
      · rw [if_pos hid]
        have hdel := Bool.and_eq_true _ _ |>.mp hid
        refine ⟨hcoherent.relabel _, ?_⟩
        rw [Event.Labelled, if_neg (by rw [hlan]; decide)]
        refine ⟨hdel, ?_, rfl⟩
        rcases htype with ⟨htype, _⟩ | ⟨_, hnot⟩
        · exact htype
        · exact absurd hdel.1 hnot
      · -- Without a name the event is no longer one of a connection.
        rw [if_neg hid] at h
        rcases h with h | h | h <;> cases h

theorem synthEvent_cases {D : List UInt8} (h : (synthEvent D).Connection) :
    (synthEvent D).Announces ∨ (synthEvent D).SynthDestroy := by
  -- Any other byte gives an event of type PARTIAL.
  have hkind : D.getD 4 0 = 1 ∨ D.getD 4 0 = 2 ∨ D.getD 4 0 = 3 := by
    by_contra hnot
    rw [not_or, not_or] at hnot
    rw [Event.Connection, synthEvent, if_neg hnot.1, if_neg hnot.2.1, if_neg hnot.2.2] at h
    rcases h with h | h | h <;> cases h
  have hcoherent : (synthEvent D).Coherent :=
    ⟨⟨false, false, ⟨⟨rfl, rfl⟩, fun h => by cases h⟩, ⟨⟨rfl, rfl⟩, fun h => by cases h⟩, rfl⟩,
      (by decide : 0 < 2 ^ 32), (by decide : 0 < 2 ^ 16), fun _ => rfl, fun _ => rfl⟩
  rcases hkind with hkind | hkind | hkind
  · exact .inl ⟨hcoherent, rfl, .inl (by rw [synthEvent, hkind]; rfl)⟩
  · exact .inl ⟨hcoherent, rfl, .inr (by rw [synthEvent, hkind]; rfl)⟩
  · -- A DESTROY does not set the flag of deletions, so that no message announces its event.
    refine .inr ⟨⟨.destroy, D.getD 5 0, be32At D 8, be16At D 12, be32At D 14, be16At D 18,
      be32At D 20, be16At D 24, be32At D 26, be16At D 30⟩, rfl, ?_⟩
    rw [synthEvent, hkind]
    rfl

theorem of_mem_feedEvents {D : List UInt8} {ev : Event} (hmem : ev ∈ feedEvents D)
    (h : ev.Connection) : ev.Announces ∨ ev.SynthDestroy := by
  rw [feedEvents] at hmem
  split_ifs at hmem with hsynth
  · obtain rfl := List.mem_singleton.1 hmem
    exact synthEvent_cases h
  · rcases List.mem_map.1 hmem with ⟨f, _, rfl⟩
    exact .inl (announces_frameEvent h)

/-! ## A message for every event that keeps them -/

/-- The addresses of a direction. -/
def Ends.addrAttrs (e : Ends) (six : Bool) : List Attr :=
  if six then [⟨ctaIpV6Src, e.src6.toList⟩, ⟨ctaIpV6Dst, e.dst6.toList⟩]
  else if e.has then [⟨ctaIpV4Src, wr32Be e.src⟩, ⟨ctaIpV4Dst, wr32Be e.dst⟩]
  else []

/-- A tuple nest with these ends. -/
def Ends.put (e : Ends) (six : Bool) (sport dport : UInt16) (proto : UInt8) : List UInt8 :=
  putAll (tupleAttrs (putAll (e.addrAttrs six)) (putAll (protoAttrs ⟨(), (), sport, dport, proto⟩)))

/-- The tuple that the parser makes of it. -/
def Ends.tuple (e : Ends) (six : Bool) (sport dport : UInt16) (proto : UInt8) : Tuple :=
  { srcIp := if six then 0 else if e.has then e.src else 0
    dstIp := if six then 0 else if e.has then e.dst else 0
    srcIp6 := if six then e.src6 else Vector.replicate 16 0
    dstIp6 := if six then e.dst6 else Vector.replicate 16 0
    srcPort := sport
    dstPort := dport
    proto := proto
    hasIp := !six && e.has
    hasIp6 := six
    hasProto := true
    hasPorts := true }

theorem Ends.plain_addrAttrs (e : Ends) (six : Bool) : Plain ipTypes 16 (e.addrAttrs six) := by
  rw [Ends.addrAttrs]
  split_ifs
  · simp +decide [Plain]
  · simp +decide [Plain]
  · exact fun a ha => absurd ha List.not_mem_nil

theorem Ends.length_addrAttrs_le (e : Ends) (six : Bool) : (e.addrAttrs six).length ≤ 2 := by
  rw [Ends.addrAttrs]
  split_ifs <;> simp

theorem Ends.plain_put (e : Ends) (six : Bool) (sport dport : UInt16) (proto : UInt8) :
    Plain tupleTypes 46 (tupleAttrs (putAll (e.addrAttrs six))
      (putAll (protoAttrs ⟨(), (), sport, dport, proto⟩))) := by
  have hip := (e.plain_addrAttrs six).length_putAll_le (by decide)
  have hproto := (plain_protoAttrs (A := Unit) ⟨(), (), sport, dport, proto⟩).length_putAll_le
    (by decide)
  have hcount := e.length_addrAttrs_le six
  have hcount' : (protoAttrs (A := Unit) ⟨(), (), sport, dport, proto⟩).length = 3 := rfl
  exact plain_tupleAttrs (by omega) (by omega)

theorem Ends.length_put_le (e : Ends) (six : Bool) (sport dport : UInt16) (proto : UInt8) :
    (e.put six sport dport proto).length ≤ 106 :=
  (e.plain_put six sport dport proto).length_putAll_le (by decide)

theorem Ends.tupleOf_put (e : Ends) (six : Bool) (sport dport : UInt16) (proto : UInt8) :
    tupleOf (e.put six sport dport proto) = e.tuple six sport dport proto := by
  have hips := (e.plain_addrAttrs six).attrs_putAll (by decide) (by decide)
  have hprotos := (plain_protoAttrs (A := Unit) ⟨(), (), sport, dport, proto⟩).attrs_putAll
    (by decide) (by decide)
  have h32 : ∀ v, be32At (wr32Be v) 0 = v := be32_wr32Be
  have h16 : ∀ v, be16At (wr16Be v) 0 = v := be16_wr16Be
  rw [tupleOf_eq, put, (e.plain_put six sport dport proto).attrs_putAll (by decide) (by decide)]
  simp +decide only [tupleAttrs, nested_cons, if_true, if_false, hips, hprotos]
  -- Both families, and a direction without addresses.
  cases six <;> cases hhas : e.has <;>
    simp +decide [tuple, addrAttrs, protoAttrs, nested, hhas, Tuple.setIp, Tuple.setProto, lastAttr,
      h32, h16, bytesOf_toList]

/-- The ends as the reply has them. -/
def Ends.swap (e : Ends) : Ends :=
  { e with src := e.dst, dst := e.src, src6 := e.dst6, dst6 := e.src6 }

/-- The header that gives the type of the event. -/
def Event.header (ev : Event) : MsgHeader where
  nlType := if ev.isDestroy then 0x0102 else 0x0100
  nlFlags := if ev.type = .eventUpdate then 0x100 else 0x400
  seq := 0
  pid := 0
  family := Vector.replicate 4 0

/-- The attributes beside the two tuples. -/
def Event.fields (ev : Event) : CtRec Unit where
  orig := ⟨(), (), ev.lanSrcPort, ev.lanDstPort, ev.protocol⟩
  reply := ⟨(), (), ev.wanDstPort, ev.wanSrcPort, ev.protocol⟩
  mark := some ev.mark.toUInt32
  zone := some ev.zone.toUInt16
  id := if ev.hasId then some ev.id else none
  status := if ev.hasStatus then some ev.status else none

def Event.message (ev : Event) (lan6 wan6 : Bool) : List UInt8 :=
  putMsg ev.header (putAll (ctAttrs ev.fields
    (ev.lan.put lan6 ev.lanSrcPort ev.lanDstPort ev.protocol)
    (ev.wan.swap.put wan6 ev.wanDstPort ev.wanSrcPort ev.protocol)))

theorem ctEvent_ctAttrs {A : Type} (r : CtRec A) (orig reply : List UInt8) (ev : Event) :
    ctEvent (ctAttrs r orig reply) ev =
      applyTuples (tupleOf orig) (tupleOf reply) (r.setCt ev) := by
  have hfirst : lastTuple ctaTupleOrig (ctAttrs r orig reply) = tupleOf orig := by
    rw [lastTuple, ctAttrs]
    simp +decide only [lastAttr_append, lastAttr_optAttr, if_false, Option.none_or]
    rfl
  have hsecond : lastTuple ctaTupleReply (ctAttrs r orig reply) = tupleOf reply := by
    rw [lastTuple, ctAttrs]
    simp +decide only [lastAttr_append, lastAttr_optAttr, if_false, Option.none_or]
    rfl
  rw [ctEvent_eq, setCt_ctAttrs, hfirst, hsecond]

theorem eventOfHeader_header {ev : Event} (h : ev.Labelled) :
    eventOfHeader ev.header.nlType ev.header.nlFlags =
      { type := ev.type, isDestroy := ev.isDestroy } := by
  have htype : if ev.isDestroy then ev.type = .eventDestroy
      else ev.type = .eventNew ∨ ev.type = .eventUpdate := by
    rw [Event.Labelled] at h
    by_cases hends : ev.hasLan || ev.hasWan
    · rw [if_pos hends] at h
      exact h.2
    · rw [if_neg hends] at h
      rw [if_pos h.1.1]
      exact h.2.1
  cases hdel : ev.isDestroy with
  | true =>
      rw [if_pos hdel] at htype
      rw [Event.header, htype, hdel]
      rfl
  | false =>
      rw [if_neg (by rw [hdel]; decide)] at htype
      -- NEW is told from UPDATE by the flags of the header.
      rcases htype with htype | htype <;>
      · rw [Event.header, htype, hdel]
        rfl

/-- What the parser makes of one direction. -/
theorem Ends.ofTuple {six : Bool} {e : Ends} (h : e.Of six) (sport dport : UInt16) (proto : UInt8) :
    let t := e.tuple six sport dport proto
    e.has = (t.hasIp || t.hasIp6) ∧ six = (!t.hasIp && t.hasIp6) ∧
      e.src = (if t.hasIp then t.srcIp else 0) ∧ e.dst = (if t.hasIp then t.dstIp else 0) ∧
      e.src6 = (if !t.hasIp && t.hasIp6 then t.srcIp6 else Vector.replicate 16 0) ∧
      e.dst6 = (if !t.hasIp && t.hasIp6 then t.dstIp6 else Vector.replicate 16 0) := by
  rw [Ends.Of] at h
  cases six <;> cases hhas : e.has <;> simp_all [Ends.tuple]

theorem Ends.of_swap {six : Bool} {e : Ends} (h : e.Of six) : e.swap.Of six := by
  rw [Ends.Of] at h ⊢
  cases six
  · exact ⟨⟨h.1.2, h.1.1⟩, fun hnone => ⟨(h.2 hnone).2, (h.2 hnone).1⟩⟩
  · exact ⟨h.1, h.2.2, h.2.1⟩

theorem toUInt64_toUInt32 {v : UInt64} (h : v.toNat < 2 ^ 32) : v.toUInt32.toUInt64 = v := by
  rw [← UInt64.toNat_inj, UInt32.toNat_toUInt64, UInt64.toNat_toUInt32]
  exact Nat.mod_eq_of_lt h

theorem toUInt32_toUInt16 {v : UInt32} (h : v.toNat < 2 ^ 16) : v.toUInt16.toUInt32 = v := by
  rw [← UInt32.toNat_inj, UInt16.toNat_toUInt32, UInt32.toNat_toUInt16]
  exact Nat.mod_eq_of_lt h

/-- Before it is labelled, the event of the message has all but the reason. -/
theorem applyTuples_message {ev : Event} (h : ev.Coherent) {lan6 wan6 : Bool}
    (hlan : ev.lan.Of lan6) (hwan : ev.wan.Of wan6) (hsix : ev.isIpv6 = (lan6 || wan6)) :
    applyTuples (ev.lan.tuple lan6 ev.lanSrcPort ev.lanDstPort ev.protocol)
        (ev.wan.swap.tuple wan6 ev.wanDstPort ev.wanSrcPort ev.protocol)
        (ev.fields.setCt { type := ev.type, isDestroy := ev.isDestroy }) =
      { ev with reason := "" } := by
  have hfirst := Ends.ofTuple hlan ev.lanSrcPort ev.lanDstPort ev.protocol
  have hsecond := Ends.ofTuple (Ends.of_swap hwan) ev.wanDstPort ev.wanSrcPort ev.protocol
  have hmark := toUInt64_toUInt32 h.mark
  have hzone := toUInt32_toUInt16 h.zone
  have hid : (if ev.hasId then some ev.id else none).getD 0 = ev.id := by
    cases hflag : ev.hasId with
    | true => rfl
    | false => exact (h.id hflag).symm
  have hstatus : (if ev.hasStatus then some ev.status else none).getD 0 = ev.status := by
    cases hflag : ev.hasStatus with
    | true => rfl
    | false => exact (h.status hflag).symm
  rw [applyTuples_eq, CtRec.setCt_zero]
  rcases hfirst with ⟨hhas, hlan6, hsrc, hdst, hsrc6, hdst6⟩
  rcases hsecond with ⟨hhas', hwan6, hsrc', hdst', hsrc6', hdst6'⟩
  -- Ports, protocol and the fields beside the tuples are there as they are in the message.
  congr 1
  · exact hsrc.symm
  · exact hdst.symm
  · exact hdst'.symm
  · exact hsrc'.symm
  · exact hsrc6.symm
  · exact hdst6.symm
  · exact hdst6'.symm
  · exact hsrc6'.symm
  · exact (Bool.or_false _).trans hhas.symm
  · exact (Bool.or_false _).trans hhas'.symm
  · show (if ev.hasId then some ev.id else none).isSome = ev.hasId
    cases ev.hasId <;> rfl
  · show (if ev.hasStatus then some ev.status else none).isSome = ev.hasStatus
    cases ev.hasStatus <;> rfl
  · calc
      _ = (wan6 || lan6) := by rw [← hwan6, Bool.or_false, ← hlan6]
      _ = ev.isIpv6 := by rw [hsix, Bool.or_comm]

/-- The event of the message is the event. -/
theorem frameEvent_message {ev : Event} (h : ev.Announces) {lan6 wan6 : Bool}
    (hlan : ev.lan.Of lan6) (hwan : ev.wan.Of wan6) (hsix : ev.isIpv6 = (lan6 || wan6)) :
    frameEvent (ev.message lan6 wan6) = ev := by
  have hplain := plain_ctAttrs ev.fields (by decide)
    (ev.lan.length_put_le lan6 ev.lanSrcPort ev.lanDstPort ev.protocol)
    (ev.wan.swap.length_put_le wan6 ev.wanDstPort ev.wanSrcPort ev.protocol)
  rw [Event.message, frameEvent, msgAttrs, drop_putMsg, nlmsgType_putMsg, nlmsgFlags_putMsg,
    hplain.attrs_putAll (by decide) (by decide), ctEvent_ctAttrs, Ends.tupleOf_put,
    Ends.tupleOf_put, eventOfHeader_header h.2, applyTuples_message h.1 hlan hwan hsix]
  have hlabel := h.2
  rw [Event.Labelled] at hlabel
  rw [labelEvent]
  by_cases hends : ev.hasLan || ev.hasWan
  · rw [if_pos hends] at hlabel
    rw [if_neg (by rw [← Bool.not_or, hends]; decide), ← hlabel.1]
  · rw [if_neg hends] at hlabel
    rw [if_pos (by rw [← Bool.not_or, Bool.eq_false_iff.2 hends]; rfl),
      if_pos (by rw [hlabel.1.1, hlabel.1.2]; rfl), ← hlabel.2.2]

theorem length_message_lt (ev : Event) (lan6 wan6 : Bool) :
    (ev.message lan6 wan6).length < 0x5443464E := by
  have hlan := ev.lan.length_put_le lan6 ev.lanSrcPort ev.lanDstPort ev.protocol
  have hwan := ev.wan.swap.length_put_le wan6 ev.wanDstPort ev.wanSrcPort ev.protocol
  have hbody := (plain_ctAttrs ev.fields (by decide) hlan hwan).length_putAll_le (by decide)
  have htypes := length_optAttr_le ctaId (ev.fields.id.map wr32Be)
  have htypes' := length_optAttr_le ctaStatus (ev.fields.status.map wr32Be)
  have hmark := length_optAttr_le ctaMark (ev.fields.mark.map wr32Be)
  have hzone := length_optAttr_le ctaZone (ev.fields.zone.map wr16Be)
  have hcount : (ctAttrs ev.fields
      (ev.lan.put lan6 ev.lanSrcPort ev.lanDstPort ev.protocol)
      (ev.wan.swap.put wan6 ev.wanDstPort ev.wanSrcPort ev.protocol)).length ≤ 6 := by
    simp only [ctAttrs, List.length_append, List.length_cons, List.length_nil]
    omega
  rw [Event.message, length_putMsg]
  omega

/-! ## Runs -/

/-- Some buffer makes the event, and no other. -/
theorem exists_buffer {ev : Event} (h : ev.Announces ∨ ev.SynthDestroy) :
    ∃ D : List UInt8, D.length < 0x5443464E ∧ feedEvents D = [ev] := by
  rcases h with h | ⟨r, hkind, rfl⟩
  · rcases h.1.families with ⟨lan6, wan6, hlan, hwan, hsix⟩
    -- A message of its own for an event that is announced.
    have hlen := length_message_lt ev lan6 wan6
    have hitem : msgFraming.Item (ev.message lan6 wan6) := by
      rw [Event.message, length_putMsg] at hlen
      exact item_putMsg _ (by omega)
    have hfull : 20 ≤ (ev.message lan6 wan6).length := by
      rw [Event.message, length_putMsg]
      exact Nat.le_add_right 20 _
    have hpacks : msgFraming.Packs [ev.message lan6 wan6] (ev.message lan6 wan6) := .last hitem
    refine ⟨_, hlen, ?_⟩
    have hsynth := not_synthetic_of_size hitem hlen
    have hframes : frames (ev.message lan6 wan6) = [ev.message lan6 wan6] :=
      Framing.split_of_packs hpacks
    have hone : [ev.message lan6 wan6].filter (20 ≤ ·.length) = [ev.message lan6 wan6] :=
      List.filter_cons_of_pos (decide_eq_true hfull)
    rw [feedEvents, if_neg hsynth, fullFrames, hframes, hone, List.map_singleton,
      frameEvent_message h hlan hwan hsix]
  · -- A synthetic frame holds all that such an event shows.
    refine ⟨synthFrame r, (by decide : 32 < 0x5443464E), ?_⟩
    rw [feedEvents, if_pos (synthetic_synthFrame r), synthEvent_synthFrame]

/-- The events of the connections that a caller is given in the runs of a context of any size are
those that keep the laws, and those of synthetic `DESTROY` frames. -/
theorem connection_returned_iff (role : Role) (config : Option Config) {ev : Event}
    (h : ev.Connection) :
    (∃ c out, Run Step (createWithConfig role config) c out ∧ ev ∈ out) ↔
      ev.Announces ∨ ev.SynthDestroy := by
  constructor
  · rintro ⟨c, out, hrun, hmem⟩
    have hstart : ∀ e ∈ (createWithConfig role config).queued,
        e.Connection → e.Announces ∨ e.SynthDestroy := by
      rw [queued_createWithConfig]
      exact fun e he => absurd he List.not_mem_nil
    -- Whatever is queued was made of some buffer.
    have hall : ∀ e ∈ out, e.Connection → e.Announces ∨ e.SynthDestroy := by
      refine (hrun.safe (I := fun c => ∀ e ∈ c.queued, e.Connection →
        e.Announces ∨ e.SynthDestroy) ?_ hstart).2
      intro c op c' out hqueue hstep
      exact hstep.queued (fun D _ e he => of_mem_feedEvents (List.mem_of_mem_take he)) hqueue
    exact hall ev hmem h
  · intro hlaws
    rcases exists_buffer hlaws with ⟨D, hlen, hevents⟩
    have hempty := queued_createWithConfig role config
    have hfree : 0 < (createWithConfig role config).free := by
      rw [QueueCtx.free, hempty]
      exact (createWithConfig role config).qsz_pos
    have hshort : ∀ f ∈ frames D, f.length ≤ maxMsg := by
      intro f hf
      have hle := length_le_of_mem_frames hf
      rw [maxMsg]
      omega
    rcases run_feed_next (fun _ _ => True) (by omega) hshort hempty
      (by rw [hevents, List.take_of_length_le hfree]) trivial (fun _ => trivial) with ⟨c', hrun⟩
    exact ⟨c', [ev], hrun.mono fun _ _ _ _ hstep => hstep.1, List.mem_singleton_self ev⟩

/-- A deletion that is known by its id alone. -/
def deletedById : Event :=
  { type := .eventDestroy, id := 7, hasId := true, isDestroy := true,
    reason := "DESTROY id=7 (no tuples)" }

theorem connection_returned_id :
    ∃ c out, Run Step (create .collector) c out ∧ deletedById ∈ out := by
  refine (connection_returned_iff .collector none (.inr (.inr rfl))).2 (.inl ⟨?_, ?_⟩)
  · refine ⟨⟨false, false, ⟨⟨rfl, rfl⟩, fun _ => ⟨rfl, rfl⟩⟩, ⟨⟨rfl, rfl⟩, fun _ => ⟨rfl, rfl⟩⟩,
      rfl⟩, by decide, by decide, fun hid => ?_, fun _ => rfl⟩
    cases hid
  · exact ⟨⟨rfl, rfl⟩, rfl, by decide⟩

end Nfct
end Netdiag
