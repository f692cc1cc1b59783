import Netdiag.Netlink.Put
import Netdiag.Nl80211.Feed
import Netdiag.Nl80211.Fields

/-!
# Encode — station records as messages

A station record has a MAC address and up to nine optional values.  `IsStaMessage` says which byte
strings are messages of a record: those that `put_nla` lays out in the three levels of nesting, in
any order of the attributes at each level, with any flag bits in their types, and with any
attributes in between that the parser does not know.

Decoding undoes encoding: the parser makes of such a message the event of the record
(`frameEvent_of_isStaMessage`), and feeding it to a context queues that event
(`parseFeedInput_staMessage`).
-/

namespace Netdiag
namespace Nl80211

open Lib

/-! ## Records -/

/-- An MCS index, with the rate attribute that gives it. -/
inductive McsRec
  | ht (index : UInt8)
  | vht (index : UInt8)

def McsRec.index : McsRec → UInt8
  | .ht index => index
  | .vht index => index

structure StaRec where
  mac : Vector UInt8 6
  signal : Option Int8 := none
  signalAvg : Option Int8 := none
  txRetries : Option UInt32 := none
  txFailed : Option UInt32 := none
  rxBytes : Option UInt32 := none
  txBytes : Option UInt32 := none
  mcs : Option McsRec := none
  freq : Option UInt32 := none

/-! ## Messages of a record -/

/-- The attribute types that `parse_top_attrs` handles. -/
abbrev topTypes : List UInt16 := [attrMac, attrStaInfo, attrWiphyFreq]

def McsRec.attr : McsRec → Attr
  | .ht index => ⟨rateInfoMcs, [index]⟩
  | .vht index => ⟨rateInfoVhtMcs, [index]⟩

def rateAttrs (r : StaRec) : List Attr :=
  (r.mcs.map McsRec.attr).toList

/-- The payload of a signed byte. -/
def s8Bytes (v : Int8) : List UInt8 := [v.toUInt8]

/-- The attributes of the station, whose rate is laid out as `rate`. -/
def staAttrs (r : StaRec) (rate : Option (List UInt8)) : List Attr :=
  optAttr staInfoSignal (r.signal.map s8Bytes) ++
    (optAttr staInfoSignalAvg (r.signalAvg.map s8Bytes) ++
      (optAttr staInfoTxRetries (r.txRetries.map wr32Le) ++
        (optAttr staInfoTxFailed (r.txFailed.map wr32Le) ++
          (optAttr staInfoRxBytes (r.rxBytes.map wr32Le) ++
            (optAttr staInfoTxBytes (r.txBytes.map wr32Le) ++ optAttr staInfoTxBitrate rate)))))

/-- The top-level attributes of a record whose station is laid out as `sta`. -/
def topAttrs (r : StaRec) (sta : Option (List UInt8)) : List Attr :=
  ⟨attrMac, r.mac.toList⟩ ::
    (optAttr attrStaInfo sta ++ optAttr attrWiphyFreq (r.freq.map wr32Le))

/-- A nest with nothing in it may be left out. -/
def IsStaBody (r : StaRec) (xs : List UInt8) : Prop :=
  ∃ rate sta, OptNest rateTypes (rateAttrs r) rate ∧ OptNest staTypes (staAttrs r rate) sta ∧
    Nest topTypes (topAttrs r sta) xs

/-- The bytes are a message of the record with the given header. -/
def IsStaMessage (r : StaRec) (h : MsgHeader) (D : List UInt8) : Prop :=
  ∃ body, IsStaBody r body ∧ D = putMsg h body

/-- The event of a record. -/
def StaRec.event (r : StaRec) : Event :=
  { type := .eventStation
    clientMac := r.mac
    signalDbm := r.signal.elim 0 Int8.toInt32
    signalAvgDbm := r.signalAvg.elim 0 Int8.toInt32
    txRetries := r.txRetries.getD 0
    txFailed := r.txFailed.getD 0
    rxBytes := r.rxBytes.getD 0
    txBytes := r.txBytes.getD 0
    mcsIndex := r.mcs.elim 0xFF McsRec.index
    frequencyMhz := r.freq.getD 0
    hasMac := true
    hasSignal := r.signal.isSome
    hasMcs := r.mcs.isSome }

/-! ## Decoding undoes encoding -/

section Decoding

variable {r : StaRec} {rate sta : Option (List UInt8)}

/-- A rate nest has at most one attribute that counts, whichever of the two types it is of. -/
theorem setRate_of_optNest (h : OptNest rateTypes (rateAttrs r) rate) (ev : Event) :
    ev.setRate (rate.elim [] attrs) =
      { ev with
          mcsIndex := r.mcs.elim ev.mcsIndex McsRec.index
          hasMcs := ev.hasMcs || r.mcs.isSome } := by
  have hperm := perm_of_optNest h
  rw [Event.setRate, lastMcs]
  cases hmcs : r.mcs with
  | none =>
      rw [rateAttrs, hmcs] at hperm
      rw [hperm.eq_nil]
      rfl
  | some m =>
      rw [rateAttrs, hmcs] at hperm
      rw [List.perm_singleton.1 hperm]
      cases m <;> rfl

/-- Every type is there at most once. -/
theorem staAttrs_types (r : StaRec) (rate : Option (List UInt8)) :
    ((staAttrs r rate).map Attr.type).Sublist staTypes := by
  simp only [staAttrs, List.map_append]
  exact (optAttr_types _ _).append ((optAttr_types _ _).append ((optAttr_types _ _).append
    ((optAttr_types _ _).append ((optAttr_types _ _).append
      ((optAttr_types _ _).append (optAttr_types _ _))))))

theorem topAttrs_types (r : StaRec) (sta : Option (List UInt8)) :
    ((topAttrs r sta).map Attr.type).Sublist topTypes := by
  simp only [topAttrs, List.map_append, List.map_cons]
  exact ((optAttr_types _ _).append (optAttr_types _ _)).cons_cons _

theorem nodup_staAttrs (r : StaRec) (rate : Option (List UInt8)) :
    ((staAttrs r rate).map Attr.type).Nodup :=
  List.Nodup.sublist (staAttrs_types r rate) (by decide)

theorem nodup_topAttrs (r : StaRec) (sta : Option (List UInt8)) :
    ((topAttrs r sta).map Attr.type).Nodup :=
  List.Nodup.sublist (topAttrs_types r sta) (by decide)

/-- The event after the attributes of the station of a record. -/
def StaRec.setSta (r : StaRec) (ev : Event) : Event :=
  { ev with
      signalDbm := r.signal.elim ev.signalDbm Int8.toInt32
      signalAvgDbm := r.signalAvg.elim ev.signalAvgDbm Int8.toInt32
      txRetries := r.txRetries.getD ev.txRetries
      txFailed := r.txFailed.getD ev.txFailed
      rxBytes := r.rxBytes.getD ev.rxBytes
      txBytes := r.txBytes.getD ev.txBytes
      mcsIndex := r.mcs.elim ev.mcsIndex McsRec.index
      hasSignal := ev.hasSignal || r.signal.isSome
      hasMcs := ev.hasMcs || r.mcs.isSome }

/-- A counter that a field gets from an optional attribute. -/
theorem elim_wr32Le (v : Option UInt32) (d : UInt32) :
    ((v.map wr32Le).filter (4 ≤ ·.length)).elim d (le32At · 0) = v.getD d := by
  have hread : ∀ v, le32At (wr32Le v) 0 = v := le32_wr32Le
  cases v with
  | none => rfl
  | some v => exact hread v

/-- A signed byte comes back with its sign. -/
theorem elim_s8Bytes (v : Option Int8) (d : Int32) :
    ((v.map s8Bytes).filter (1 ≤ ·.length)).elim d (·.getD 0 0 |>.toInt8.toInt32) =
      v.elim d Int8.toInt32 := by
  cases v with
  | none => rfl
  | some v => rfl

theorem isSome_s8Bytes (v : Option Int8) :
    ((v.map s8Bytes).filter (1 ≤ ·.length)).isSome = v.isSome := by
  cases v <;> rfl

theorem setSta_staAttrs (h : OptNest rateTypes (rateAttrs r) rate) (ev : Event) :
    ev.setSta (staAttrs r rate) = r.setSta ev := by
  have hrate : nested staInfoTxBitrate (staAttrs r rate) = rate.elim [] attrs := by
    simp +decide only [staAttrs, nested_append, nested_optAttr, if_true, if_false,
      List.nil_append]
  rw [Event.setSta, hrate, setRate_of_optNest h]
  simp +decide only [staAttrs, lastAttr_append, lastAttr_optAttr, if_true, if_false,
    Option.or_none, Option.none_or, elim_wr32Le, elim_s8Bytes, isSome_s8Bytes]
  rfl

/-- Unknown attributes and the order of the known ones do not change the event. -/
theorem setSta_of_optNest (hrate : OptNest rateTypes (rateAttrs r) rate)
    (hsta : OptNest staTypes (staAttrs r rate) sta) (ev : Event) :
    ev.setSta (sta.elim [] attrs) = r.setSta ev := by
  -- No type is there twice, so what is left of each type does not depend on the order.
  have hfilter : ∀ type ∈ staTypes, (sta.elim [] attrs).filter (·.type = type) =
      (staAttrs r rate).filter (·.type = type) :=
    fun type htype => filter_of_optNest hsta (nodup_staAttrs r rate) htype
  have hlast : ∀ type ∈ staTypes, ∀ min, lastAttr type min (sta.elim [] attrs) =
      lastAttr type min (staAttrs r rate) := by
    intro type htype min
    rw [lastAttr, hfilter type htype, ← lastAttr]
  have hnested : nested staInfoTxBitrate (sta.elim [] attrs) =
      nested staInfoTxBitrate (staAttrs r rate) := by
    rw [nested, hfilter _ (by decide), ← nested]
  rw [← setSta_staAttrs hrate, Event.setSta, hnested, hlast staInfoSignal (by decide),
    hlast staInfoSignalAvg (by decide), hlast staInfoTxRetries (by decide),
    hlast staInfoTxFailed (by decide), hlast staInfoRxBytes (by decide),
    hlast staInfoTxBytes (by decide), ← Event.setSta]

theorem stationEvent_of_isStaBody {xs : List UInt8} (h : IsStaBody r xs) :
    stationEvent (attrs xs) = r.event := by
  rcases h with ⟨rate, sta, hrate, hsta, hnest⟩
  -- From the outside in: first the order at the top level, then the nest that is found there.
  have hlast : ∀ type ∈ topTypes, ∀ min,
      lastAttr type min (attrs xs) = lastAttr type min (topAttrs r sta) :=
    fun type htype min => lastAttr_of_nest hnest (nodup_topAttrs r sta) htype min
  have hnested : nested attrStaInfo (attrs xs) = sta.elim [] attrs := by
    rw [nested_of_nest hnest (nodup_topAttrs r sta) (by decide), topAttrs, nested_cons]
    simp +decide only [nested_append, nested_optAttr, if_true, if_false, List.nil_append,
      List.append_nil]
  have hcons : topAttrs r sta = [⟨attrMac, r.mac.toList⟩] ++
      (optAttr attrStaInfo sta ++ optAttr attrWiphyFreq (r.freq.map wr32Le)) := rfl
  have hmac : lastAttr attrMac 6 (attrs xs) = some r.mac.toList := by
    rw [hlast attrMac (by decide), hcons]
    simp +decide only [lastAttr_append, lastAttr_optAttr, lastAttr_single, if_true, if_false,
      Option.none_or, Vector.length_toList]
  have hfreq : (lastAttr attrWiphyFreq 4 (attrs xs)).elim 0 (le32At · 0) = r.freq.getD 0 := by
    rw [hlast attrWiphyFreq (by decide), hcons]
    simp +decide only [lastAttr_append, lastAttr_optAttr, lastAttr_single, if_true, if_false,
      false_and, Option.or_none, elim_wr32Le]
  have hzero : stationInit.frequencyMhz = 0 := rfl
  rw [stationEvent_eq, Event.setTop, hnested, setSta_of_optNest hrate hsta, hmac, hzero, hfreq]
  rcases r with ⟨_, signal, signalAvg, _, _, _, _, mcs, _⟩
  simp only [Option.elim_some, bytesOf_toList, StaRec.setSta, StaRec.event, stationInit]
  rfl

theorem frameEvent_of_isStaMessage {h : MsgHeader} {D : List UInt8} (hmsg : IsStaMessage r h D) :
    frameEvent D = r.event := by
  rcases hmsg with ⟨body, hbody, rfl⟩
  rw [frameEvent, msgAttrs, drop_putMsg, stationEvent_of_isStaBody hbody]

end Decoding

/-! ## A message for every record -/

def putSta (r : StaRec) : List UInt8 :=
  putAll (staAttrs r (some (putAll (rateAttrs r))))

/-- The message that the tests build: every attribute once, and every nest, in the order of the
record and without flags. -/
def putStation (r : StaRec) (h : MsgHeader) : List UInt8 :=
  putMsg h (putAll (topAttrs r (some (putSta r))))

theorem plain_rateAttrs (r : StaRec) : Plain rateTypes 1 (rateAttrs r) := by
  intro a ha
  rcases hmcs : r.mcs with _ | m
  · rw [rateAttrs, hmcs] at ha
    cases ha
  · rw [rateAttrs, hmcs] at ha
    obtain rfl := List.mem_singleton.1 ha
    cases m with
    | ht index => exact ⟨show rateInfoMcs ∈ rateTypes by decide, le_rfl⟩
    | vht index => exact ⟨show rateInfoVhtMcs ∈ rateTypes by decide, le_rfl⟩

theorem length_rateAttrs_le (r : StaRec) : (rateAttrs r).length ≤ 1 := by
  rcases hmcs : r.mcs with _ | m <;> simp [rateAttrs, hmcs]

theorem plain_staAttrs (r : StaRec) {rate : List UInt8} {k : Nat} (hk : 4 ≤ k)
    (hrate : rate.length ≤ k) : Plain staTypes k (staAttrs r (some rate)) := by
  have h8 : ∀ v : Option Int8, ∀ xs ∈ v.map s8Bytes, xs.length ≤ k := by
    rintro (_ | v) xs hxs <;> cases hxs
    exact (show 1 ≤ 4 by decide).trans hk
  have h32 : ∀ v : Option UInt32, ∀ xs ∈ v.map wr32Le, xs.length ≤ k := by
    rintro (_ | v) xs hxs <;> cases hxs
    exact hk
  have hnest : ∀ xs ∈ some rate, xs.length ≤ k := by
    rintro xs hxs
    cases hxs
    exact hrate
  exact (plain_optAttr (by decide) (h8 r.signal)).append
    ((plain_optAttr (by decide) (h8 r.signalAvg)).append
      ((plain_optAttr (by decide) (h32 r.txRetries)).append
        ((plain_optAttr (by decide) (h32 r.txFailed)).append
          ((plain_optAttr (by decide) (h32 r.rxBytes)).append
            ((plain_optAttr (by decide) (h32 r.txBytes)).append
              (plain_optAttr (by decide) hnest))))))

theorem length_staAttrs_le (r : StaRec) (rate : Option (List UInt8)) :
    (staAttrs r rate).length ≤ 7 := by
  have hlen := (staAttrs_types r rate).length_le
  rwa [List.length_map] at hlen

theorem length_topAttrs_le (r : StaRec) (sta : Option (List UInt8)) :
    (topAttrs r sta).length ≤ 3 := by
  have hlen := (topAttrs_types r sta).length_le
  rwa [List.length_map] at hlen

theorem plain_topAttrs (r : StaRec) {sta : List UInt8} {k : Nat} (hk : 6 ≤ k)
    (hsta : sta.length ≤ k) : Plain topTypes k (topAttrs r (some sta)) := by
  have h32 : ∀ v : Option UInt32, ∀ xs ∈ v.map wr32Le, xs.length ≤ k := by
    rintro (_ | v) xs hxs <;> cases hxs
    exact (show 4 ≤ 6 by decide).trans hk
  have hmac : Plain topTypes k [⟨attrMac, r.mac.toList⟩] := by
    intro a ha
    obtain rfl := List.mem_singleton.1 ha
    exact ⟨show attrMac ∈ topTypes by decide, by rwa [Vector.length_toList]⟩
  have hnest : ∀ xs ∈ some sta, xs.length ≤ k := by
    rintro xs hxs
    cases hxs
    exact hsta
  exact hmac.append ((plain_optAttr (by decide) hnest).append
    (plain_optAttr (by decide) (h32 r.freq)))

theorem length_putRate_le (r : StaRec) : (putAll (rateAttrs r)).length ≤ 8 := by
  have hbytes := (plain_rateAttrs r).length_putAll_le (by decide)
  have hcount := length_rateAttrs_le r
  omega

theorem length_putSta_le (r : StaRec) : (putSta r).length ≤ 105 := by
  have hbytes := (plain_staAttrs r (by decide) (length_putRate_le r)).length_putAll_le (by decide)
  have hcount := length_staAttrs_le r (some (putAll (rateAttrs r)))
  rw [putSta]
  omega

theorem isStaMessage_putStation (r : StaRec) (h : MsgHeader) :
    IsStaMessage r h (putStation r h) := by
  have hrate : OptNest rateTypes (rateAttrs r) (some (putAll (rateAttrs r))) :=
    (plain_rateAttrs r).nest (by decide) (by decide)
  have hsta : OptNest staTypes (staAttrs r (some (putAll (rateAttrs r)))) (some (putSta r)) :=
    (plain_staAttrs r (by decide) (length_putRate_le r)).nest (by decide) (by decide)
  exact ⟨_, ⟨_, _, hrate, hsta, (plain_topAttrs r (by decide) (length_putSta_le r)).nest
    (by decide) (by decide)⟩, rfl⟩

theorem length_putStation_lt (r : StaRec) (h : MsgHeader) :
    (putStation r h).length < 0x31313238 := by
  have hbytes := (plain_topAttrs r (by decide) (length_putSta_le r)).length_putAll_le (by decide)
  have hcount := length_topAttrs_le r (some (putSta r))
  rw [putStation, length_putMsg]
  omega

/-! ## The round trip -/

/-- Feeding a message of a record to a context with a free slot queues the event of the record. -/
theorem parseFeedInput_staMessage (p : Platform) (c : Ctx) (hfree : 0 < c.free) (r : StaRec)
    (h : MsgHeader) (D : List UInt8) (hlen : D.length < 0x31313238) (hmsg : IsStaMessage r h D) :
    ∃ c', parseFeedInput p (some c) (some D) = .ok (0, some c') ∧
      c'.queued = c.queued ++ [r.event] := by
  have hevent := frameEvent_of_isStaMessage hmsg
  rcases hmsg with ⟨body, _, rfl⟩
  have htotal := length_putMsg h body
  have hreceive : receive c (putMsg h body) = c.pushAll [r.event] := by
    rw [receive, hevent, if_pos ⟨by omega, rfl⟩]
    rfl
  refine ⟨_, parseFeedInput_of_item (item_putMsg h (by omega)) (by omega) hlen c, ?_⟩
  rw [hreceive, QueueCtx.queued_pushAll, List.take_of_length_le hfree]

/-- The station of the tests. -/
def testStation : StaRec where
  mac := #v[0xaa, 0xbb, 0xcc, 0xdd, 0xee, 0xff]
  signal := some (-62)
  txRetries := some 7
  mcs := some (.ht 11)
  freq := some 5180

/-- The header of the message of the tests. -/
def testHeader : MsgHeader where
  nlType := 0
  nlFlags := 0
  seq := 0
  pid := 0
  family := #v[13, 0, 0, 0]

/-- The message of the tests in a fresh context. -/
theorem parseFeedInput_staMessage_test :
    ∃ c', parseFeedInput .lp64 (some (parseCreate .collector))
        (some (putStation testStation testHeader)) = .ok (0, some c') ∧
      c'.queued = (parseCreate .collector).queued ++ [testStation.event] :=
  parseFeedInput_staMessage .lp64 (parseCreate .collector) (by decide) testStation testHeader _
    (length_putStation_lt testStation testHeader) (isStaMessage_putStation testStation testHeader)

end Nl80211
end Netdiag
