import Netdiag.Netlink.Msg
import Netdiag.Nl80211.Parse

/-!
# Decode — what a station message means

The reference decoder for station messages: each nest is a left-to-right fold over its decoded
attributes, `frameEvent` is the event of one message, and `feedEvents` lists the events of a whole
buffer.  The second half proves that the attribute parsers of `Parse` compute these folds and read
nothing outside their nests.
-/

namespace Netdiag
namespace Nl80211

open Lib

/-! ## Folding over attributes -/

def Event.addRate (ev : Event) (a : Attr) : Event :=
  if (a.type = rateInfoMcs ∨ a.type = rateInfoVhtMcs) ∧ 1 ≤ a.payload.length then
    { ev with mcsIndex := a.payload.getD 0 0, hasMcs := true }
  else ev

def Event.addSta (ev : Event) (a : Attr) : Event :=
  if a.type = staInfoSignal then
    if 1 ≤ a.payload.length then
      { ev with signalDbm := (a.payload.getD 0 0).toInt8.toInt32, hasSignal := true }
    else ev
  else if a.type = staInfoSignalAvg then
    if 1 ≤ a.payload.length then
      { ev with signalAvgDbm := (a.payload.getD 0 0).toInt8.toInt32 }
    else ev
  else if a.type = staInfoTxRetries then
    if 4 ≤ a.payload.length then { ev with txRetries := le32At a.payload 0 } else ev
  else if a.type = staInfoTxFailed then
    if 4 ≤ a.payload.length then { ev with txFailed := le32At a.payload 0 } else ev
  else if a.type = staInfoRxBytes then
    if 4 ≤ a.payload.length then { ev with rxBytes := le32At a.payload 0 } else ev
  else if a.type = staInfoTxBytes then
    if 4 ≤ a.payload.length then { ev with txBytes := le32At a.payload 0 } else ev
  else if a.type = staInfoTxBitrate then
    (attrs a.payload).foldl Event.addRate ev
  else ev

def Event.addTop (ev : Event) (a : Attr) : Event :=
  if a.type = attrMac then
    if 6 ≤ a.payload.length then
      { ev with clientMac := bytesOf 6 a.payload, hasMac := true }
    else ev
  else if a.type = attrStaInfo then
    (attrs a.payload).foldl Event.addSta ev
  else if a.type = attrWiphyFreq then
    if 4 ≤ a.payload.length then { ev with frequencyMhz := le32At a.payload 0 } else ev
  else ev

/-- The event of a list of top-level attributes. -/
def stationEvent (as : List Attr) : Event :=
  as.foldl Event.addTop stationInit

/-- The event has a MAC address or a signal; without either it is not queued. -/
def Event.named (ev : Event) : Bool :=
  ev.hasMac || ev.hasSignal

/-! ## Messages and buffers -/

/-- The event of a message of at least 20 bytes. -/
def frameEvent (f : List UInt8) : Event :=
  stationEvent (msgAttrs f)

/-- The buffer is taken as a synthetic frame. -/
def Synthetic (D : List UInt8) : Prop :=
  20 ≤ D.length ∧ be32At D 0 = synthMagic

instance (D : List UInt8) : Decidable (Synthetic D) :=
  inferInstanceAs (Decidable (_ ∧ _))

/-- The event of a synthetic frame. -/
def synthEvent (D : List UInt8) : Event :=
  { type := .eventStation
    clientMac := bytesOf 6 (D.drop 4)
    signalDbm := (be32At D 10).toInt32
    snrDb := (D.getD 14 0).toInt8
    mcsIndex := D.getD 15 0
    txRetries := be32At D 16
    hasMac := true
    hasSignal := true
    hasMcs := D.getD 15 0 != 0xFF }

/-- The first word of the buffer cannot be the length of its first message. -/
def Bare (D : List UInt8) : Prop :=
  4 ≤ D.length ∧ (nlmsgLen D < 16 ∨ D.length < (nlmsgLen D).toNat)

instance (D : List UInt8) : Decidable (Bare D) :=
  inferInstanceAs (Decidable (_ ∧ _))

/-- The event of a buffer that is one stream of attributes. -/
def bareEvent (D : List UInt8) : Event :=
  let ev := stationEvent (attrs D)
  if ev.named then ev else errorEvent ev D.length

/-- The events of a buffer, in order. -/
def feedEvents (D : List UInt8) : List Event :=
  if Synthetic D then [synthEvent D]
  else if Bare D then [bareEvent D]
  else ((fullFrames D).map frameEvent).filter Event.named

/-! ## The attribute parsers compute their folds -/

section Refinement

variable {p : Platform} {D : List UInt8}

/-- The variables of the three loops are as they should be. -/
theorem rightVars : RightVars id attrPlen attrAligned where
  plen_eq := by
    intro alen n h
    rw [attrPlen, h]
    exact Nat.add_sub_cancel_left 4 _
  aligned_eq _ := rfl

theorem rateInfoAttr_acts : ActsAs id D (rateInfoAttr D) Event.addRate := by
  rintro ev a _ q _ rfl hat
  simp only [rateInfoAttr, Event.addRate, ge_iff_le]
  split_ifs with hmcs
  · rw [hat.rd_zero (by omega)]
    rfl
  · rfl

theorem staInfoAttr_acts : ActsAs id D (staInfoAttr p D) Event.addSta := by
  rintro ev a _ q hshort rfl hat
  have hrate : parseRateInfo p D q a.payload.length ev =
      .ok ((attrs a.payload).foldl Event.addRate ev) :=
    nlaWalk_eq_foldl hat (nest_fits hshort) rightVars rateInfoAttr_acts ev
  have hword : 4 ≤ a.payload.length → rd32Le D q = .ok (le32At a.payload 0) :=
    fun h => hat.rd32Le_zero h
  have hbyte : 1 ≤ a.payload.length → rd D q = .ok (a.payload.getD 0 0) :=
    fun h => hat.rd_zero h
  simp only [staInfoAttr, Event.addSta, hrate, ge_iff_le]
  -- One branch for each type, and in it one for a payload that is long enough.
  refine ite_eq_ok (fun _ => read_eq_ok hbyte) fun _ => ?_
  refine ite_eq_ok (fun _ => read_eq_ok hbyte) fun _ => ?_
  refine ite_eq_ok (fun _ => read_eq_ok hword) fun _ => ?_
  refine ite_eq_ok (fun _ => read_eq_ok hword) fun _ => ?_
  refine ite_eq_ok (fun _ => read_eq_ok hword) fun _ => ?_
  refine ite_eq_ok (fun _ => read_eq_ok hword) fun _ => ?_
  exact ite_eq_ok (fun _ => rfl) fun _ => rfl

theorem topAttr_acts : ActsAs id D (topAttr p D) Event.addTop := by
  rintro ev a _ q hshort rfl hat
  have hsta : parseStaInfo p D q a.payload.length ev =
      .ok ((attrs a.payload).foldl Event.addSta ev) :=
    nlaWalk_eq_foldl hat (nest_fits hshort) rightVars staInfoAttr_acts ev
  have hmac : 6 ≤ a.payload.length → memcpy D q 6 = .ok (bytesOf 6 a.payload) :=
    fun h => hat.memcpy h (by decide)
  have hword : 4 ≤ a.payload.length → rd32Le D q = .ok (le32At a.payload 0) :=
    fun h => hat.rd32Le_zero h
  simp only [topAttr, Event.addTop, hsta, ge_iff_le]
  refine ite_eq_ok (fun _ => read_eq_ok hmac) fun _ => ?_
  refine ite_eq_ok (fun _ => rfl) fun _ => ?_
  exact ite_eq_ok (fun _ => read_eq_ok hword) fun _ => rfl

theorem parseTopAttrs_eq (ev : Event) {q : Nat} {xs : List UInt8} (hat : At D q xs)
    (hfit : xs.length + 2 ^ 16 ≤ p.sizeMod) :
    parseTopAttrs p D q xs.length ev = .ok ((attrs xs).foldl Event.addTop ev) :=
  nlaWalk_eq_foldl hat hfit rightVars topAttr_acts ev

/-! ## The message loop -/

/-- What a message does to the context. -/
def receive (c : Ctx) (f : List UInt8) : Ctx :=
  if 20 ≤ f.length ∧ (frameEvent f).named then (qpush c (frameEvent f)).1 else c

/-- Where a message stands, a turn parses its attributes and goes on.  Only the step to the next
message may wrap. -/
theorem messagesTurnWith_msg (parseAttrs : Nat → Nat → Event → Except Fault Event)
    (hD : D.length < p.sizeMod) {off n : Nat} (hsome : msgFraming.size (D.drop off) = some n)
    (c : Ctx) :
    messagesTurnWith p D parseAttrs (off, c) =
      if 20 ≤ n then
        parseAttrs (off + 20) (n - 20) stationInit >>= fun ev =>
          .ok (.again (p.add off (nlaAlign (nlmsgLen (D.drop off))).toNat,
            if ev.named then (qpush c ev).1 else c))
      else .ok (.again (p.add off (nlaAlign (nlmsgLen (D.drop off))).toNat, c)) := by
  rcases msgFraming_size_eq_some.1 hsome with ⟨hheader, hmin, hmax, hn⟩
  have hend := Framing.add_size_le hsome
  have hhere : At D off (D.drop off) := List.prefix_rfl
  have hlen : (nlmsgLen (D.drop off)).toNat = n := hn
  have hgood := good_header_of_some hD hsome
  have hshort : nlmsgLen (D.drop off) < 20 ↔ ¬ 20 ≤ n := by
    rw [UInt32.lt_iff_toNat_lt, hlen, Nat.not_le]
    rfl
  rw [messagesTurnWith, Platform.add_of_lt (by omega), if_pos (by omega),
    hhere.rd32Le_zero (by omega)]
  simp only [bind, Except.bind, ← nlmsgLen.eq_1]
  rw [if_neg hgood]
  by_cases hfull : 20 ≤ n
  · -- No sum wraps, so the length of the attributes is not clamped.
    rw [if_neg (hshort.not.2 (not_not.2 hfull)), hlen, if_pos hfull,
      Platform.add_of_lt (by omega : off + n < p.sizeMod),
      Platform.add_of_lt (by omega : off + 20 < p.sizeMod),
      Platform.add_of_lt (by omega : off + 20 + (n - 20) < p.sizeMod),
      if_neg (by omega : ¬ off + 20 + (n - 20) > off + n)]
    rfl
  · rw [if_pos (hshort.2 hfull), if_neg hfull]
    rfl

/-- Where its attributes are parsed as they should be, the message is received. -/
theorem messagesTurn_of_some (hD : D.length < p.sizeMod) {off n : Nat}
    (hsome : msgFraming.size (D.drop off) = some n)
    (hattrs : 20 ≤ n → parseTopAttrs p D (off + 20) (n - 20) stationInit =
      .ok (frameEvent ((D.drop off).take n))) (c : Ctx) :
    messagesTurn p D (off, c) =
      .ok (.again (p.add off (nlaAlign (nlmsgLen (D.drop off))).toNat,
        receive c ((D.drop off).take n))) := by
  rcases msgFraming_size_eq_some.1 hsome with ⟨_, hmin, hmax, _⟩
  have hframe : ((D.drop off).take n).length = n := List.length_take_of_le hmax
  rw [messagesTurn, messagesTurnWith_msg _ hD hsome, receive, hframe]
  by_cases hfull : 20 ≤ n
  · rw [if_pos hfull, hattrs hfull]
    simp only [hfull, true_and]
    rfl
  · rw [if_neg hfull, if_neg fun h => hfull h.1]

end Refinement
end Nl80211
end Netdiag
