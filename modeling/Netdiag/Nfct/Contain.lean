import Netdiag.Netlink.Payload
import Netdiag.Nfct.Sources

/-!
# Contain — garbage in a tuple stays in its direction

The payload of a tuple may be anything.  The walk inside it stops where it is malformed, and the
walks around it do not notice: the event of the message keeps what the other tuple and the other
attributes decide, and the events of the other messages of the buffer are the same
(`tuple_contained`).
-/

namespace Netdiag
namespace Nfct

open Lib

/-! ## What an event keeps -/

/-- The fields that no tuple decides, but for the type and the reason. -/
structure SameRecord (ev ev' : Event) : Prop where
  mark : ev'.mark = ev.mark
  zone : ev'.zone = ev.zone
  id : ev'.id = ev.id
  hasId : ev'.hasId = ev.hasId
  status : ev'.status = ev.status
  hasStatus : ev'.hasStatus = ev.hasStatus
  isDestroy : ev'.isDestroy = ev.isDestroy

structure SameWan (ev ev' : Event) : Prop where
  wanSrcIp : ev'.wanSrcIp = ev.wanSrcIp
  wanDstIp : ev'.wanDstIp = ev.wanDstIp
  wanSrcIp6 : ev'.wanSrcIp6 = ev.wanSrcIp6
  wanDstIp6 : ev'.wanDstIp6 = ev.wanDstIp6
  wanSrcPort : ev'.wanSrcPort = ev.wanSrcPort
  wanDstPort : ev'.wanDstPort = ev.wanDstPort
  hasWan : ev'.hasWan = ev.hasWan

structure SameLan (ev ev' : Event) : Prop where
  lanSrcIp : ev'.lanSrcIp = ev.lanSrcIp
  lanDstIp : ev'.lanDstIp = ev.lanDstIp
  lanSrcIp6 : ev'.lanSrcIp6 = ev.lanSrcIp6
  lanDstIp6 : ev'.lanDstIp6 = ev.lanDstIp6
  lanSrcPort : ev'.lanSrcPort = ev.lanSrcPort
  lanDstPort : ev'.lanDstPort = ev.lanDstPort
  hasLan : ev'.hasLan = ev.hasLan

/-- The tuple has a protocol number. -/
def CarriesProto (xs : List UInt8) : Prop :=
  ∃ a ∈ nested ctaTupleProto (attrs xs), a.type = ctaProtoNum ∧ 1 ≤ a.payload.length

instance (xs : List UInt8) : Decidable (CarriesProto xs) :=
  inferInstanceAs (Decidable (∃ a ∈ nested ctaTupleProto (attrs xs), _))

theorem hasProto_tupleOf (xs : List UInt8) : (tupleOf xs).hasProto = true ↔ CarriesProto xs := by
  rw [tupleOf_eq]
  simp only [Tuple.setProto, Tuple.setIp, Bool.false_or]
  exact isSome_lastAttr_iff

section Tuples

variable (nlType : UInt16) (nlLen : UInt32) (ev : Event)

/-- The tuples decide none of these. -/
theorem sameRecord_of_tuples (orig orig' reply reply' : Tuple) :
    SameRecord (labelEvent nlType nlLen (applyTuples orig reply ev))
      (labelEvent nlType nlLen (applyTuples orig' reply' ev)) := by
  rcases labelEvent_eq nlType nlLen (applyTuples orig reply ev) with ⟨_, _, h⟩
  rcases labelEvent_eq nlType nlLen (applyTuples orig' reply' ev) with ⟨_, _, h'⟩
  rw [h, h', applyTuples_eq, applyTuples_eq]
  exact ⟨rfl, rfl, rfl, rfl, rfl, rfl, rfl⟩

/-- WAN is decided by the reply tuple alone. -/
theorem sameWan_of_reply (orig orig' reply : Tuple) :
    SameWan (labelEvent nlType nlLen (applyTuples orig reply ev))
      (labelEvent nlType nlLen (applyTuples orig' reply ev)) := by
  rcases labelEvent_eq nlType nlLen (applyTuples orig reply ev) with ⟨_, _, h⟩
  rcases labelEvent_eq nlType nlLen (applyTuples orig' reply ev) with ⟨_, _, h'⟩
  rw [h, h', applyTuples_eq, applyTuples_eq]
  exact ⟨rfl, rfl, rfl, rfl, rfl, rfl, rfl⟩

/-- LAN is decided by the original tuple alone, and so is a protocol that it has. -/
theorem sameLan_of_orig (orig reply reply' : Tuple) :
    SameLan (labelEvent nlType nlLen (applyTuples orig reply ev))
        (labelEvent nlType nlLen (applyTuples orig reply' ev)) ∧
      (orig.hasProto = true →
        (labelEvent nlType nlLen (applyTuples orig reply' ev)).protocol =
          (labelEvent nlType nlLen (applyTuples orig reply ev)).protocol) := by
  rcases labelEvent_eq nlType nlLen (applyTuples orig reply ev) with ⟨_, _, h⟩
  rcases labelEvent_eq nlType nlLen (applyTuples orig reply' ev) with ⟨_, _, h'⟩
  rw [h, h', applyTuples_eq, applyTuples_eq]
  refine ⟨⟨rfl, rfl, rfl, rfl, rfl, rfl, rfl⟩, fun hproto => ?_⟩
  simp only [hproto, if_true]

end Tuples

/-! ## A message with other bytes in a tuple -/

/-- The message of `n` bytes at `off` of the buffer. -/
def messageAt (D : List UInt8) (off n : Nat) : List UInt8 :=
  (D.drop off).take n

/-- In a message, an attribute of this type, of `k` bytes at `o` of the attributes. -/
structure AttrAt (f : List UInt8) (o k : Nat) (type : UInt16) : Prop where
  attr : nlaFraming.Offset (f.drop 20) o
  size : nlaFraming.size ((f.drop 20).drop o) = some k
  type : (Attr.ofBytes (((f.drop 20).drop o).take k)).type = type

section Message

variable {f q : List UInt8} {o k : Nat} {type : UInt16}

/-- The attribute ends in the message. -/
theorem AttrAt.le (h : AttrAt f o k type) : 20 + (o + k) ≤ f.length := by
  have hle := Framing.add_size_le h.size
  have hmin := (nlaFraming_size_eq_some.1 h.size).2.1
  rw [List.length_drop] at hle
  omega

/-- The message with another payload in the attribute has the attributes it had but for this
one. -/
theorem AttrAt.msgAttrs_overwrite (h : AttrAt f o k type) (hq : 4 + q.length = k) :
    ∃ as a bs, a.type = type ∧ msgAttrs f = as ++ a :: bs ∧
      msgAttrs (overwrite f (20 + (o + 4)) q) = as ++ { a with payload := q } :: bs := by
  have hle := h.le
  refine ⟨_, _, _, h.type, attrs_eq_of_offset h.attr h.size, ?_⟩
  rw [msgAttrs, drop_overwrite (by omega) (by omega), Nat.add_sub_cancel_left]
  exact attrs_overwrite h.attr h.size hq

/-- A tuple of another type is the one it was. -/
theorem AttrAt.tupleNest_overwrite (h : AttrAt f o k type) (hq : 4 + q.length = k)
    {other : UInt16} (hne : type ≠ other) :
    tupleNest other (overwrite f (20 + (o + 4)) q) = tupleNest other f := by
  rcases h.msgAttrs_overwrite hq with ⟨as, a, bs, hatype, hold, hnew⟩
  rw [tupleNest, tupleNest, hold, hnew, lastAttr_replace (hatype ▸ hne)]

/-- The attributes that are read into the event right away are of other types. -/
theorem AttrAt.setCt_overwrite (h : AttrAt f o k type) (hq : 4 + q.length = k)
    (htype : type = ctaTupleOrig ∨ type = ctaTupleReply) (ev : Event) :
    ev.setCt (msgAttrs (overwrite f (20 + (o + 4)) q)) = ev.setCt (msgAttrs f) := by
  rcases h.msgAttrs_overwrite hq with ⟨as, a, bs, hatype, hold, hnew⟩
  have hne : a.type ≠ ctaMark ∧ a.type ≠ ctaZone ∧ a.type ≠ ctaId ∧ a.type ≠ ctaStatus := by
    rw [hatype]
    rcases htype with rfl | rfl <;> decide
  rw [hold, hnew]
  simp only [Event.setCt, lastAttr_replace hne.1, lastAttr_replace hne.2.1,
    lastAttr_replace hne.2.2.1, lastAttr_replace hne.2.2.2]

/-- The event of the message with another payload in a tuple, from what the message was. -/
theorem AttrAt.frameEvent_overwrite (h : AttrAt f o k type) (hq : 4 + q.length = k)
    (htype : type = ctaTupleOrig ∨ type = ctaTupleReply) :
    frameEvent (overwrite f (20 + (o + 4)) q) =
      labelEvent (nlmsgType f) (nlmsgLen f)
        (applyTuples (tupleOf (origNest (overwrite f (20 + (o + 4)) q)))
          (tupleOf (replyNest (overwrite f (20 + (o + 4)) q)))
          ((eventOfHeader (nlmsgType f) (nlmsgFlags f)).setCt (msgAttrs f))) := by
  have hle := h.le
  rw [frameEvent_eq, decoded, h.setCt_overwrite hq htype,
    nlmsgType_overwrite (by omega) (by omega), nlmsgLen_overwrite (by omega) (by omega),
    nlmsgFlags_overwrite (by omega) (by omega)]

/-- Whatever is in the original tuple, WAN and the record stay. -/
theorem AttrAt.sameWan (h : AttrAt f o k ctaTupleOrig) (hq : 4 + q.length = k) :
    SameWan (frameEvent f) (frameEvent (overwrite f (20 + (o + 4)) q)) ∧
      SameRecord (frameEvent f) (frameEvent (overwrite f (20 + (o + 4)) q)) := by
  have hreply : replyNest (overwrite f (20 + (o + 4)) q) = replyNest f :=
    h.tupleNest_overwrite hq (by decide)
  rw [h.frameEvent_overwrite hq (.inl rfl), hreply, frameEvent_eq, decoded]
  exact ⟨sameWan_of_reply _ _ _ _ _ _, sameRecord_of_tuples _ _ _ _ _ _ _⟩

/-- Whatever is in the reply tuple, LAN and the record stay, and so does the protocol of the
original tuple. -/
theorem AttrAt.sameLan (h : AttrAt f o k ctaTupleReply) (hq : 4 + q.length = k) :
    SameLan (frameEvent f) (frameEvent (overwrite f (20 + (o + 4)) q)) ∧
      SameRecord (frameEvent f) (frameEvent (overwrite f (20 + (o + 4)) q)) ∧
      (CarriesProto (origNest f) →
        (frameEvent (overwrite f (20 + (o + 4)) q)).protocol = (frameEvent f).protocol) := by
  have horig : origNest (overwrite f (20 + (o + 4)) q) = origNest f :=
    h.tupleNest_overwrite hq (by decide)
  rw [h.frameEvent_overwrite hq (.inr rfl), horig, frameEvent_eq, decoded, ← hasProto_tupleOf]
  have hlan := sameLan_of_orig (nlmsgType f) (nlmsgLen f)
    ((eventOfHeader (nlmsgType f) (nlmsgFlags f)).setCt (msgAttrs f)) (tupleOf (origNest f))
    (tupleOf (replyNest f)) (tupleOf (replyNest (overwrite f (20 + (o + 4)) q)))
  exact ⟨hlan.1, sameRecord_of_tuples _ _ _ _ _ _ _, hlan.2⟩

end Message

/-! ## The whole buffer -/

/-- Feeding the buffers queues the same events but for those of the messages of `n` bytes at `off`,
which are related; or neither call returns. -/
def DifferAt (R : Event → Event → Prop) (off n : Nat) (D D' : List UInt8) : Prop :=
  R (frameEvent (messageAt D off n)) (frameEvent (messageAt D' off n)) ∧
    ∃ before after, ∀ c,
      (feedInput .lp64 (some c) (some D) =
          .ok (0, some (c.pushAll (before ++ frameEvent (messageAt D off n) :: after))) ∧
        feedInput .lp64 (some c) (some D') =
          .ok (0, some (c.pushAll (before ++ frameEvent (messageAt D' off n) :: after)))) ∨
      (feedInput .lp64 (some c) (some D) = .error .stuck ∧
        feedInput .lp64 (some c) (some D') = .error .stuck)

section Buffer

variable {D q : List UInt8} {off n i : Nat}

/-- A buffer that is not a synthetic frame: its messages are received, or one of them holds the
loop. -/
theorem feedInput_or_stuck (hD : D.length < 2 ^ 63) (hsynth : ¬ Synthetic D) (c : Ctx) :
    (∀ f ∈ frames D, f.length ≤ maxMsg) ∧ feedInput .lp64 (some c) (some D) =
        .ok (0, some (c.pushAll ((fullFrames D).map frameEvent))) ∨
      (¬ ∀ f ∈ frames D, f.length ≤ maxMsg) ∧
        feedInput .lp64 (some c) (some D) = .error .stuck := by
  by_cases hshort : ∀ f ∈ frames D, f.length ≤ maxMsg
  · refine .inl ⟨hshort, ?_⟩
    rw [feedInput_eq hD hshort, feedEvents, if_neg hsynth]
  · refine .inr ⟨hshort, ?_⟩
    push Not at hshort
    rcases hshort with ⟨f, hf, hlong⟩
    exact feedInput_of_long hD hsynth hf hlong c

theorem synthetic_overwrite_iff (hi : 4 ≤ i) (hlen : i + q.length ≤ D.length) :
    Synthetic (overwrite D i q) ↔ Synthetic D := by
  have hmagic : be32At (overwrite D i q) 0 = be32At D 0 := by
    rw [← be32At_take (by omega : 0 + 4 ≤ 4), take_overwrite_of_le hi (by omega),
      be32At_take (by omega)]
  rw [Synthetic, Synthetic, length_overwrite hlen, hmagic]

/-- The message with other bytes behind its header is where it was. -/
theorem messageAt_overwrite (hsome : msgFraming.size (D.drop off) = some n)
    (hend : i + q.length ≤ n) :
    messageAt (overwrite D (off + i) q) off n = overwrite (messageAt D off n) i q := by
  have hle := Framing.add_size_le hsome
  rw [messageAt, messageAt, drop_overwrite (by omega) (by omega), Nat.add_sub_cancel_left,
    take_overwrite hend (by rw [List.length_drop]; omega)]

/-- What a message becomes when its inside is overwritten does not concern the others. -/
theorem differAt_overwrite (hD : D.length < 2 ^ 63) (hsynth : ¬ Synthetic D)
    (hoff : msgFraming.Offset D off) (hsome : msgFraming.size (D.drop off) = some n)
    (hi : 20 ≤ i) (hend : i + q.length ≤ n) {R : Event → Event → Prop}
    (hR : R (frameEvent (messageAt D off n))
      (frameEvent (overwrite (messageAt D off n) i q))) :
    DifferAt R off n D (overwrite D (off + i) q) := by
  have hle := Framing.add_size_le hsome
  have hlen' : (overwrite D (off + i) q).length = D.length := length_overwrite (by omega)
  have hsame := messageAt_overwrite hsome hend
  have hsynth' : ¬ Synthetic (overwrite D (off + i) q) := by
    rw [synthetic_overwrite_iff (by omega) (by omega)]
    exact hsynth
  have hfull := fullFrames_eq_of_offset hoff hsome (by omega)
  have hfull' := fullFrames_overwrite hoff hsome (by omega) (by omega : 16 ≤ i) hend
  rw [← messageAt] at hfull hfull'
  have hshort := forall_length_frames_overwrite hoff hsome (by omega : 16 ≤ i) hend (· ≤ maxMsg)
  refine ⟨hsame.symm ▸ hR, (fullFrames (D.take off)).map frameEvent,
    (fullFrames (D.drop (off + roundUp4 n))).map frameEvent, fun c => ?_⟩
  rw [hsame, ← List.map_cons, ← List.map_append, ← List.map_cons, ← List.map_append, ← hfull,
    ← hfull']
  -- The lengths are the same, so the messages hold the loop in both buffers or in neither.
  rcases feedInput_or_stuck hD hsynth c with ⟨hall, hfed⟩ | ⟨hlong, hstuck⟩
  · rcases feedInput_or_stuck (hlen'.symm ▸ hD) hsynth' c with ⟨_, hfed'⟩ | ⟨hlong', _⟩
    · exact .inl ⟨hfed, hfed'⟩
    · exact absurd (hshort.2 hall) hlong'
  · rcases feedInput_or_stuck (hlen'.symm ▸ hD) hsynth' c with ⟨hall', _⟩ | ⟨_, hstuck'⟩
    · exact absurd (hshort.1 hall') hlong
    · exact .inr ⟨hstuck, hstuck'⟩

end Buffer

/-- Whatever bytes replace the payload of a tuple of a message: the event of the message keeps all
that the other tuple and the other attributes decide, and the other events stay as they are. -/
theorem tuple_contained {D : List UInt8} (hD : D.length < 2 ^ 63) (hsynth : ¬ Synthetic D)
    {off n : Nat} (hoff : msgFraming.Offset D off) (hsome : msgFraming.size (D.drop off) = some n)
    {o k : Nat} {q : List UInt8} (hq : 4 + q.length = k) :
    (AttrAt (messageAt D off n) o k ctaTupleOrig →
      DifferAt (fun ev ev' => SameWan ev ev' ∧ SameRecord ev ev') off n D
        (overwrite D (off + (20 + (o + 4))) q)) ∧
    (AttrAt (messageAt D off n) o k ctaTupleReply →
      DifferAt (fun ev ev' => SameLan ev ev' ∧ SameRecord ev ev' ∧
          (CarriesProto (origNest (messageAt D off n)) → ev'.protocol = ev.protocol)) off n D
        (overwrite D (off + (20 + (o + 4))) q)) := by
  have hlen : (messageAt D off n).length = n :=
    List.length_take_of_le (msgFraming_size_eq_some.1 hsome).2.2.1
  constructor
  · intro h
    have hle := h.le
    exact differAt_overwrite hD hsynth hoff hsome (by omega) (by omega) (h.sameWan hq)
  · intro h
    have hle := h.le
    exact differAt_overwrite hD hsynth hoff hsome (by omega) (by omega) (h.sameLan hq)

/-- A `NEW` message with the source `10.0.0.1` in its original and the destination `192.0.2.1` in
its reply tuple. -/
def natMessage : List UInt8 :=
  [52, 0, 0, 0, 0, 1, 0, 0, 0, 0, 0, 0, 0, 0, 0, 0, 2, 0, 0, 0,
    16, 0, 1, 0x80, 12, 0, 1, 0x80, 8, 0, 1, 0, 10, 0, 0, 1,
    16, 0, 2, 0x80, 12, 0, 1, 0x80, 8, 0, 2, 0, 192, 0, 2, 1]

/-- Zeros, among which there is no attribute, in either tuple. -/
theorem tuple_contained_zeros :
    DifferAt (fun ev ev' => SameWan ev ev' ∧ SameRecord ev ev') 0 52 natMessage
        (overwrite natMessage 24 (List.replicate 12 0)) ∧
      DifferAt (fun ev ev' => SameLan ev ev' ∧ SameRecord ev ev' ∧
          (CarriesProto (origNest natMessage) → ev'.protocol = ev.protocol)) 0 52 natMessage
        (overwrite natMessage 40 (List.replicate 12 0)) := by
  have hD : natMessage.length < 2 ^ 63 := by decide
  have hsynth : ¬ Synthetic natMessage := by decide
  have hsome : msgFraming.size (natMessage.drop 0) = some 52 := by decide
  have hq : 4 + (List.replicate 12 (0 : UInt8)).length = 16 := rfl
  have hfirst : nlaFraming.size ((natMessage.drop 20).drop 0) = some 16 := by decide
  have hmessage : messageAt natMessage 0 52 = natMessage := by decide
  have horig : AttrAt natMessage 0 16 ctaTupleOrig := ⟨.start, hfirst, by decide⟩
  have hreply : AttrAt natMessage 16 16 ctaTupleReply :=
    ⟨.next .start hfirst, by decide, by decide⟩
  have hfirst' := (tuple_contained hD hsynth .start hsome hq).1 (hmessage.symm ▸ horig)
  have hsecond' := (tuple_contained hD hsynth .start hsome hq).2 (hmessage.symm ▸ hreply)
  rw [hmessage] at hsecond'
  exact ⟨hfirst', hsecond'⟩

end Nfct
end Netdiag
