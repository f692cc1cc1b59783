import Netdiag.Netlink.Attr
import Netdiag.Nl80211.Event

/-!
# Parse — the station parser as the code runs it

`src/nl80211_parse.c` from `try_synth` to `nl80211_parse_feed_input`: every read is by index into
the buffer that the caller passed, and every loop is run turn by turn.
-/

namespace Netdiag
namespace Nl80211

open Lib

/-! ## Attribute numbers -/

abbrev attrMac : UInt16 := 6
abbrev attrStaInfo : UInt16 := 21
abbrev attrWiphyFreq : UInt16 := 38

abbrev staInfoRxBytes : UInt16 := 2
abbrev staInfoTxBytes : UInt16 := 3
abbrev staInfoSignal : UInt16 := 7
abbrev staInfoTxBitrate : UInt16 := 8
abbrev staInfoTxRetries : UInt16 := 11
abbrev staInfoTxFailed : UInt16 := 12
abbrev staInfoSignalAvg : UInt16 := 13

abbrev rateInfoMcs : UInt16 := 2
abbrev rateInfoVhtMcs : UInt16 := 4

/-- `NL80211_SYNTH_MAGIC`, the bytes of `8211`. -/
abbrev synthMagic : UInt32 := 0x38323131

abbrev nlaHdrlen : Nat := 4

section Walkers

variable (p : Platform) (D : List UInt8)

def rd32BeS (i : Nat) : Except Fault Int32 := do
  let v ← rd32Be D i
  return v.toInt32

/-- `plen = (size_t)alen - NLA_HDRLEN`. -/
def attrPlen (alen : UInt16) : Nat :=
  alen.toNat - nlaHdrlen

/-- `NLA_ALIGN(alen)`. -/
def attrAligned (alen : UInt16) : Nat :=
  (nlaAlign alen.toUInt32).toNat

/-- The loops of `parse_rate_info`, `parse_sta_info` and `parse_top_attrs` up to their test of the
type. -/
def attrHead (data len : Nat) : Nat → Except Fault (Head Nat) :=
  nlaHead p D data len attrPlen attrAligned

/-- What the loop of `parse_rate_info` does with one attribute. -/
def rateInfoAttr (ev : Event) (atype : UInt16) (plen payload : Nat) : Except Fault Event :=
  if (atype = rateInfoMcs ∨ atype = rateInfoVhtMcs) ∧ plen ≥ 1 then do
    let mcs ← rd D payload
    return { ev with mcsIndex := mcs, hasMcs := true }
  else
    return ev

def parseRateInfo (data len : Nat) (ev : Event) : Except Fault Event :=
  nlaWalk p len (attrHead p D data len) (rateInfoAttr D) ev

/-- What the loop of `parse_sta_info` does with one attribute. -/
def staInfoAttr (ev : Event) (atype : UInt16) (plen payload : Nat) : Except Fault Event :=
  if atype = staInfoSignal then
    if plen ≥ 1 then do
      let signal ← rd D payload
      return { ev with signalDbm := signal.toInt8.toInt32, hasSignal := true }
    else
      return ev
  else if atype = staInfoSignalAvg then
    if plen ≥ 1 then do
      let signal ← rd D payload
      return { ev with signalAvgDbm := signal.toInt8.toInt32 }
    else
      return ev
  else if atype = staInfoTxRetries then
    if plen ≥ 4 then do
      let v ← rd32Le D payload
      return { ev with txRetries := v }
    else
      return ev
  else if atype = staInfoTxFailed then
    if plen ≥ 4 then do
      let v ← rd32Le D payload
      return { ev with txFailed := v }
    else
      return ev
  else if atype = staInfoRxBytes then
    if plen ≥ 4 then do
      let v ← rd32Le D payload
      return { ev with rxBytes := v }
    else
      return ev
  else if atype = staInfoTxBytes then
    if plen ≥ 4 then do
      let v ← rd32Le D payload
      return { ev with txBytes := v }
    else
      return ev
  else if atype = staInfoTxBitrate then
    parseRateInfo p D payload plen ev
  else
    return ev

def parseStaInfo (data len : Nat) (ev : Event) : Except Fault Event :=
  nlaWalk p len (attrHead p D data len) (staInfoAttr p D) ev

/-- What the loop of `parse_top_attrs` does with one attribute. -/
def topAttr (ev : Event) (atype : UInt16) (plen payload : Nat) : Except Fault Event :=
  if atype = attrMac then
    if plen ≥ 6 then do
      let mac ← memcpy D payload 6
      return { ev with clientMac := mac, hasMac := true }
    else
      return ev
  else if atype = attrStaInfo then
    parseStaInfo p D payload plen ev
  else if atype = attrWiphyFreq then
    if plen ≥ 4 then do
      let v ← rd32Le D payload
      return { ev with frequencyMhz := v }
    else
      return ev
  else
    return ev

def parseTopAttrs (data len : Nat) (ev : Event) : Except Fault Event :=
  nlaWalk p len (attrHead p D data len) (topAttr p D) ev

end Walkers

/-! ## Messages -/

/-- The event as `parse_nl80211_messages` sets it up before it reads the attributes. -/
def stationInit : Event :=
  { type := .eventStation, mcsIndex := 0xFF }

/-- The text is shorter than the 96 bytes of `reason`. -/
def errorEvent (ev : Event) (len : Nat) : Event :=
  { ev with
      type := .eventError
      reason := s!"nl80211 attrs without MAC/signal ({len} bytes)" }

section Messages

variable (p : Platform) (D : List UInt8)

/-- One turn of the loop of `parse_nl80211_messages`, over the parser that it hands the attributes
to. -/
def messagesTurnWith (parseAttrs : Nat → Nat → Event → Except Fault Event) :
    Nat × Ctx → Except Fault (Turn (Nat × Ctx) Ctx)
  | (off, c) => do
      if p.add off 16 ≤ D.length then
        let nlLen ← rd32Le D off
        if nlLen < 16 ∨ D.length < p.add off nlLen.toNat then
          return .leave c
        else if nlLen < 20 then
          return .again (p.add off (nlaAlign nlLen).toNat, c)
        else
          let attrOff := p.add off 20
          let attrLen := nlLen.toNat - 20
          let attrLen :=
            if p.add attrOff attrLen > p.add off nlLen.toNat then
              if p.add off nlLen.toNat > attrOff then p.add off nlLen.toNat - attrOff else 0
            else attrLen
          let ev ← parseAttrs attrOff attrLen stationInit
          return .again (p.add off (nlaAlign nlLen).toNat,
            if ev.hasMac || ev.hasSignal then (qpush c ev).1 else c)
      else
        return .leave c

/-- The turn as the code makes it. -/
def messagesTurn : Nat × Ctx → Except Fault (Turn (Nat × Ctx) Ctx) :=
  messagesTurnWith p D (parseTopAttrs p D)

/-- `parse_nl80211_messages`: a buffer whose first word cannot be the length of a message is
taken as one stream of attributes.  With more than `len + 2` turns the loop would stand at an
offset where it has been before, and go on forever. -/
def parseNl80211Messages (c : Ctx) : Except Fault Ctx := do
  let bare ←
    if D.length ≥ nlaHdrlen then do
      let maybeNl ← rd32Le D 0
      pure (decide (maybeNl < 16 ∨ maybeNl.toNat > D.length))
    else
      pure false
  if bare then
    let ev ← parseTopAttrs p D 0 D.length stationInit
    if ev.hasMac || ev.hasSignal then
      return (qpush c ev).1
    else
      return (qpush c (errorEvent ev D.length)).1
  else
    Loop.exec (messagesTurn p D) .stuck (D.length + 2) (0, c)

/-- `try_synth`: the context and whether the buffer was taken as a synthetic frame. -/
def trySynth (c : Ctx) : Except Fault (Ctx × Bool) :=
  if D.length < 20 then
    return (c, false)
  else do
    let magic ← rd32Be D 0
    if magic ≠ synthMagic then
      return (c, false)
    else
      let clientMac ← memcpy D 4 6
      let signalDbm ← rd32BeS D 10
      let snr ← rd D 14
      let mcsIndex ← rd D 15
      let txRetries ← rd32Be D 16
      let ev : Event :=
        { type := .eventStation, clientMac, signalDbm, snrDb := snr.toInt8, mcsIndex, txRetries,
          hasMac := true, hasSignal := true, hasMcs := mcsIndex != 0xFF }
      return ((qpush c ev).1, true)

end Messages

/-- `nl80211_parse_feed_input`; the arguments are the pointers, `none` for `NULL`. -/
def parseFeedInput (p : Platform) (ctx : Option Ctx) (data : Option (List UInt8)) :
    Except Fault (Int × Option Ctx) :=
  match ctx, data with
  | some c, some D =>
      if D.length = 0 then
        return (0, some c)
      else do
        let (c, taken) ← trySynth D c
        if taken then
          return (0, some c)
        else
          let c ← parseNl80211Messages p D c
          return (0, some c)
  | _, _ => return (-1, ctx)

end Nl80211
end Netdiag
