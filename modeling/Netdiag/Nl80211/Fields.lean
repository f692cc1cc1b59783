import Netdiag.Nl80211.Decode

/-!
# Fields — which attribute decides a field of a station event

The folds of `Decode` in closed form: each field of an event is left with the value of the last
attribute that carries it, those of the station with the last one in any of its `STA_INFO` nests.
An event is queued if it has a MAC address or a signal, that is, if the message has an attribute
that carries one of them (`named_stationEvent_iff`).
-/

namespace Netdiag
namespace Nl80211

open Lib

/-! ## Rates -/

/-- The attribute types that `parse_rate_info` handles. -/
abbrev rateTypes : List UInt16 := [rateInfoMcs, rateInfoVhtMcs]

/-- The payload of the last attribute of either rate type. -/
def lastMcs (as : List Attr) : Option (List UInt8) :=
  (((as.filter (·.type ∈ rateTypes)).map Attr.payload).filter (1 ≤ ·.length)).getLast?

theorem lastMcs_append (as bs : List Attr) :
    lastMcs (as ++ bs) = (lastMcs bs).or (lastMcs as) := by
  simp only [lastMcs, List.filter_append, List.map_append, List.getLast?_append]

theorem lastMcs_single (a : Attr) :
    lastMcs [a] = if a.type ∈ rateTypes ∧ 1 ≤ a.payload.length then some a.payload else none := by
  by_cases htype : a.type ∈ rateTypes <;> by_cases hlen : 1 ≤ a.payload.length <;>
    simp only [lastMcs, List.filter_cons, List.filter_nil, htype, hlen, decide_true, decide_false,
      if_true, if_false, List.map_cons, List.map_nil, List.getLast?_singleton, List.getLast?_nil,
      and_true, and_false, Bool.false_eq_true]

/-- An event after the attributes of a rate nest. -/
def Event.setRate (ev : Event) (as : List Attr) : Event :=
  { ev with
      mcsIndex := (lastMcs as).elim ev.mcsIndex (·.getD 0 0)
      hasMcs := ev.hasMcs || (lastMcs as).isSome }

theorem setRate_append (ev : Event) (as bs : List Attr) :
    (ev.setRate as).setRate bs = ev.setRate (as ++ bs) := by
  simp only [Event.setRate, lastMcs_append, elim_or, Option.isSome_or]
  congr 1
  grind

theorem addRate_eq_setRate (ev : Event) (a : Attr) : ev.addRate a = ev.setRate [a] := by
  have hmem : a.type ∈ rateTypes ↔ a.type = rateInfoMcs ∨ a.type = rateInfoVhtMcs := by simp
  simp only [Event.addRate, Event.setRate, lastMcs_single, hmem]
  split_ifs
  · simp
  · simp

theorem foldl_addRate (ev : Event) (as : List Attr) :
    as.foldl Event.addRate ev = ev.setRate as := by
  induction as generalizing ev with
  | nil => simp [Event.setRate, lastMcs]
  | cons a as ih =>
      rw [List.foldl_cons, ih, addRate_eq_setRate, setRate_append, List.singleton_append]

/-! ## Stations -/

/-- An event after the attributes of a `STA_INFO` nest. -/
def Event.setSta (ev : Event) (as : List Attr) : Event :=
  { ev.setRate (nested staInfoTxBitrate as) with
      signalDbm :=
        (lastAttr staInfoSignal 1 as).elim ev.signalDbm (·.getD 0 0 |>.toInt8.toInt32)
      signalAvgDbm :=
        (lastAttr staInfoSignalAvg 1 as).elim ev.signalAvgDbm (·.getD 0 0 |>.toInt8.toInt32)
      txRetries := (lastAttr staInfoTxRetries 4 as).elim ev.txRetries (le32At · 0)
      txFailed := (lastAttr staInfoTxFailed 4 as).elim ev.txFailed (le32At · 0)
      rxBytes := (lastAttr staInfoRxBytes 4 as).elim ev.rxBytes (le32At · 0)
      txBytes := (lastAttr staInfoTxBytes 4 as).elim ev.txBytes (le32At · 0)
      hasSignal := ev.hasSignal || (lastAttr staInfoSignal 1 as).isSome }

theorem setSta_append (ev : Event) (as bs : List Attr) :
    (ev.setSta as).setSta bs = ev.setSta (as ++ bs) := by
  simp only [Event.setSta, Event.setRate, lastAttr_append, nested_append, lastMcs_append, elim_or,
    Option.isSome_or]
  congr 1 <;> grind

/-- The attribute types that `parse_sta_info` handles. -/
abbrev staTypes : List UInt16 :=
  [staInfoSignal, staInfoSignalAvg, staInfoTxRetries, staInfoTxFailed, staInfoRxBytes,
    staInfoTxBytes, staInfoTxBitrate]

theorem addSta_eq_setSta (ev : Event) (a : Attr) : ev.addSta a = ev.setSta [a] := by
  rcases a with ⟨type, payload⟩
  by_cases hknown : type ∈ staTypes
  · -- One case for each type, and in it one for a payload that is long enough.
    simp only [staTypes, List.mem_cons, List.not_mem_nil, or_false] at hknown
    rcases hknown with rfl | rfl | rfl | rfl | rfl | rfl | rfl
    all_goals simp +decide only [Event.addSta, Event.setSta, Event.setRate, lastAttr_single,
      nested_cons, foldl_addRate, if_true, if_false, true_and, false_and]
    all_goals by_cases h1 : 1 ≤ payload.length <;> by_cases h4 : 4 ≤ payload.length <;>
      simp [h1, h4, nested, lastMcs]
  · simp only [staTypes, List.mem_cons, List.not_mem_nil, or_false, not_or] at hknown
    simp only [Event.addSta, Event.setSta, Event.setRate, lastAttr_single, nested_cons, hknown,
      if_false, false_and]
    simp [nested, lastMcs]

theorem foldl_addSta (ev : Event) (as : List Attr) : as.foldl Event.addSta ev = ev.setSta as := by
  induction as generalizing ev with
  | nil => simp [Event.setSta, Event.setRate, nested, lastMcs]
  | cons a as ih =>
      rw [List.foldl_cons, ih, addSta_eq_setSta, setSta_append, List.singleton_append]

/-! ## Messages -/

/-- An event after the attributes of a message. -/
def Event.setTop (ev : Event) (as : List Attr) : Event :=
  { ev.setSta (nested attrStaInfo as) with
      clientMac := (lastAttr attrMac 6 as).elim ev.clientMac (bytesOf 6)
      frequencyMhz := (lastAttr attrWiphyFreq 4 as).elim ev.frequencyMhz (le32At · 0)
      hasMac := ev.hasMac || (lastAttr attrMac 6 as).isSome }

theorem setTop_append (ev : Event) (as bs : List Attr) :
    (ev.setTop as).setTop bs = ev.setTop (as ++ bs) := by
  -- The fields that a `STA_INFO` nest decides are those of `setSta_append`.
  have hsta := setSta_append ev (nested attrStaInfo as) (nested attrStaInfo bs)
  simp only [Event.setSta, Event.setRate, Event.mk.injEq] at hsta
  simp only [Event.setTop, Event.setSta, Event.setRate, lastAttr_append, nested_append,
    lastMcs_append, elim_or, Option.isSome_or]
  congr 1 <;> grind

theorem addTop_eq_setTop (ev : Event) (a : Attr) : ev.addTop a = ev.setTop [a] := by
  simp only [Event.addTop, Event.setTop, lastAttr_single, foldl_addSta, nested_cons, attrMac,
    attrStaInfo, attrWiphyFreq]
  split_ifs <;> simp_all [nested, Event.setSta, Event.setRate, lastMcs]

theorem foldl_addTop (ev : Event) (as : List Attr) : as.foldl Event.addTop ev = ev.setTop as := by
  induction as generalizing ev with
  | nil => simp [Event.setTop, Event.setSta, Event.setRate, nested, lastMcs]
  | cons a as ih =>
      rw [List.foldl_cons, ih, addTop_eq_setTop, setTop_append, List.singleton_append]

theorem stationEvent_eq (as : List Attr) : stationEvent as = stationInit.setTop as :=
  foldl_addTop stationInit as

/-! ## Which events are queued -/

/-- The attributes carry a MAC address, or in a `STA_INFO` nest a signal. -/
def Identified (as : List Attr) : Prop :=
  (∃ a ∈ as, a.type = attrMac ∧ 6 ≤ a.payload.length) ∨
    ∃ a ∈ as, a.type = attrStaInfo ∧
      ∃ b ∈ attrs a.payload, b.type = staInfoSignal ∧ 1 ≤ b.payload.length

instance (as : List Attr) : Decidable (Identified as) :=
  inferInstanceAs (Decidable (_ ∨ _))

theorem hasMac_stationEvent_iff {as : List Attr} :
    (stationEvent as).hasMac = true ↔ ∃ a ∈ as, a.type = attrMac ∧ 6 ≤ a.payload.length := by
  rw [stationEvent_eq, ← isSome_lastAttr_iff]
  rfl

theorem hasSignal_stationEvent_iff {as : List Attr} :
    (stationEvent as).hasSignal = true ↔ ∃ a ∈ as, a.type = attrStaInfo ∧
      ∃ b ∈ attrs a.payload, b.type = staInfoSignal ∧ 1 ≤ b.payload.length := by
  have hfield : (stationEvent as).hasSignal =
      (lastAttr staInfoSignal 1 (nested attrStaInfo as)).isSome := by
    rw [stationEvent_eq]
    rfl
  rw [hfield, isSome_lastAttr_iff]
  constructor
  · rintro ⟨b, hb, htype, hlen⟩
    rcases mem_nested.1 hb with ⟨a, ha, hnest, hmem⟩
    exact ⟨a, ha, hnest, b, hmem, htype, hlen⟩
  · rintro ⟨a, ha, hnest, b, hmem, htype, hlen⟩
    exact ⟨b, mem_nested.2 ⟨a, ha, hnest, hmem⟩, htype, hlen⟩

theorem named_stationEvent_iff {as : List Attr} :
    (stationEvent as).named = true ↔ Identified as := by
  rw [Event.named, Bool.or_eq_true, hasMac_stationEvent_iff, hasSignal_stationEvent_iff, Identified]

theorem type_stationEvent (as : List Attr) : (stationEvent as).type = .eventStation := by
  rw [stationEvent_eq]
  rfl

end Nl80211
end Netdiag
