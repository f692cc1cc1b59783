import Netdiag.Parsers.Mcs
import Netdiag.Print

/-!
# Lines — station events as text

`nl80211_event_to_string` writes the measurements of a station that has a MAC, and type and reason
of every other event.  Two lines are the same exactly if the events are of one kind and agree in
what their kind shows (`line_eq_iff`), and arrays of 112 characters hold the lines of all events
that callers are given (`returned_lines`).
-/

namespace Netdiag
namespace Nl80211

open Lib

/-! ## The printer -/

/-- The number of a type. -/
def typeNumber : EventType → Int
  | .eventNone => 0
  | .eventStation => 1
  | .eventSurvey => 2
  | .eventError => 3

def stationFormat : List Piece :=
  [.lit "sta ".toList, .arg, .lit ":".toList, .arg, .lit ":".toList, .arg, .lit ":".toList, .arg,
    .lit ":".toList, .arg, .lit ":".toList, .arg, .lit " rssi=".toList, .arg, .lit " snr=".toList,
    .arg, .lit " mcs=".toList, .arg, .lit " retries=".toList, .arg]

def stationArgs (ev : Event) : List (List Char) :=
  [hexByte ev.clientMac[0], hexByte ev.clientMac[1], hexByte ev.clientMac[2],
    hexByte ev.clientMac[3], hexByte ev.clientMac[4], hexByte ev.clientMac[5],
    signed ev.signalDbm.toInt, signed ev.snrDb.toInt, decimal ev.mcsIndex.toNat,
    decimal ev.txRetries.toNat]

def otherFormat : List Piece :=
  [.lit "nl80211 type=".toList, .arg, .lit " ".toList, .arg]

def otherArgs (ev : Event) : List (List Char) :=
  [signed (typeNumber ev.type), ev.reason.toList]

/-- The event names a station. -/
def Named (ev : Event) : Prop :=
  ev.type = .eventStation ∧ ev.hasMac = true

instance (ev : Event) : Decidable (Named ev) :=
  inferInstanceAs (Decidable (_ ∧ _))

def line (ev : Event) : List Char :=
  if Named ev then fill stationFormat (stationArgs ev) else fill otherFormat (otherArgs ev)

/-- `nl80211_event_to_string`: the array `buf` as it is afterwards, `none` for `NULL`. -/
def eventToString (ev : Option Event) (buf : Option (List Char)) (max : Nat) :
    Except Fault (Option (List Char)) :=
  match ev, buf with
  | some ev, some buf =>
      if max = 0 then return none
      else do
        let buf ← snprintf buf max (line ev)
        return some buf
  | _, _ => return none

/-! ## Reading a line -/

theorem delimits_station (ev : Event) : Delimits stationFormat (stationArgs ev) := by
  have hbyte : ∀ b, ':' ∉ hexByte b := fun b => not_mem_hexByte (by decide)
  have hlast : ∀ b, ' ' ∉ hexByte b := fun b => not_mem_hexByte (by decide)
  have hsigned : ∀ i, ' ' ∉ signed i := fun i => not_mem_signed (by decide) (by decide)
  exact ⟨hbyte _, hbyte _, hbyte _, hbyte _, hbyte _, hlast _, hsigned _, hsigned _,
    not_mem_decimal (by decide), trivial⟩

theorem delimits_other (ev : Event) : Delimits otherFormat (otherArgs ev) :=
  ⟨not_mem_signed (by decide) (by decide), trivial⟩

theorem typeNumber_inj {s t : EventType} (h : typeNumber s = typeNumber t) : s = t := by
  revert h
  cases s <;> cases t <;> decide

/-- Two events agree in all that their lines show. -/
structure SameShown (ev ev' : Event) : Prop where
  named : Named ev ↔ Named ev'
  station : Named ev → ev.clientMac = ev'.clientMac ∧ ev.signalDbm = ev'.signalDbm ∧
    ev.snrDb = ev'.snrDb ∧ ev.mcsIndex = ev'.mcsIndex ∧ ev.txRetries = ev'.txRetries
  other : ¬Named ev → ev.type = ev'.type ∧ ev.reason = ev'.reason

theorem mac_inj {a b : Vector UInt8 6} (h₀ : hexByte a[0] = hexByte b[0])
    (h₁ : hexByte a[1] = hexByte b[1]) (h₂ : hexByte a[2] = hexByte b[2])
    (h₃ : hexByte a[3] = hexByte b[3]) (h₄ : hexByte a[4] = hexByte b[4])
    (h₅ : hexByte a[5] = hexByte b[5]) : a = b := by
  refine Vector.ext fun i hi => ?_
  match i, hi with
  | 0, _ => exact hexByte_inj h₀
  | 1, _ => exact hexByte_inj h₁
  | 2, _ => exact hexByte_inj h₂
  | 3, _ => exact hexByte_inj h₃
  | 4, _ => exact hexByte_inj h₄
  | 5, _ => exact hexByte_inj h₅

/-- The first character tells the kind. -/
theorem head?_line (ev : Event) : (line ev).head? = some (if Named ev then 's' else 'n') := by
  rw [line]
  split_ifs <;> rfl

theorem named_iff_of_line {ev ev' : Event} (h : line ev = line ev') : Named ev ↔ Named ev' := by
  have hhead : (if Named ev then 's' else 'n') = if Named ev' then 's' else 'n' := by
    apply Option.some.inj
    rw [← head?_line, ← head?_line, h]
  by_cases hev : Named ev <;> by_cases hev' : Named ev'
  · exact iff_of_true hev hev'
  · rw [if_pos hev, if_neg hev'] at hhead
    exact absurd hhead (by decide)
  · rw [if_neg hev, if_pos hev'] at hhead
    exact absurd hhead (by decide)
  · exact iff_of_false hev hev'

theorem sameShown_of_line {ev ev' : Event} (h : line ev = line ev') : SameShown ev ev' := by
  have hnamed := named_iff_of_line h
  refine ⟨hnamed, fun hev => ?_, fun hev => ?_⟩
  · rw [line, line, if_pos hev, if_pos (hnamed.1 hev)] at h
    have hargs := fill_inj (delimits_station ev) (delimits_station ev') h
    simp only [stationArgs, List.cons.injEq, and_true] at hargs
    rcases hargs with ⟨h₀, h₁, h₂, h₃, h₄, h₅, hsignal, hsnr, hmcs, hretries⟩
    exact ⟨mac_inj h₀ h₁ h₂ h₃ h₄ h₅, Int32.toInt_inj.1 (signed_inj hsignal),
      Int8.toInt_inj.1 (signed_inj hsnr), UInt8.toNat_inj.1 (decimal_inj hmcs),
      UInt32.toNat_inj.1 (decimal_inj hretries)⟩
  · rw [line, line, if_neg hev, if_neg (mt hnamed.2 hev)] at h
    have hargs := fill_inj (delimits_other ev) (delimits_other ev') h
    simp only [otherArgs, List.cons.injEq, and_true] at hargs
    exact ⟨typeNumber_inj (signed_inj hargs.1), String.toList_inj.1 hargs.2⟩

theorem line_eq_iff {ev ev' : Event} : line ev = line ev' ↔ SameShown ev ev' := by
  refine ⟨sameShown_of_line, fun h => ?_⟩
  by_cases hev : Named ev
  · rcases h.station hev with ⟨hmac, hsignal, hsnr, hmcs, hretries⟩
    rw [line, line, if_pos hev, if_pos (h.named.1 hev), stationArgs, stationArgs, hmac, hsignal,
      hsnr, hmcs, hretries]
  · rcases h.other hev with ⟨htype, hreason⟩
    rw [line, line, if_neg hev, if_neg (mt h.named.2 hev), otherArgs, otherArgs, htype, hreason]

/-! ## Room for a line -/

/-- The reason is a text of the 96 bytes that it has. -/
def Event.Worded (ev : Event) : Prop :=
  nul ∉ ev.reason.toList ∧ ev.reason.toList.length < 96

theorem natAbs_toInt_lt (v : Int32) : v.toInt.natAbs < 10 ^ 10 := by
  have hlow := v.le_toInt
  have hhigh := v.toInt_lt
  omega

theorem length_line_le {ev : Event} (h : ev.Worded) : (line ev).length ≤ 111 := by
  -- The reason fits the 96 bytes that it has, and the other arguments are numbers.
  have hreason := h.2
  rw [line]
  split_ifs with hnamed
  · have hsignal : (signed ev.signalDbm.toInt).length ≤ 11 :=
      length_signed_le (by decide) (natAbs_toInt_lt _)
    have hsnr : (signed ev.snrDb.toInt).length ≤ 4 := by
      have hlow := ev.snrDb.le_toInt
      have hhigh := ev.snrDb.toInt_lt
      exact length_signed_le (by decide) (by omega)
    have hmcs : (decimal ev.mcsIndex.toNat).length ≤ 3 :=
      length_decimal_le (by decide) (ev.mcsIndex.toNat_lt.trans (by decide))
    have hretries : (decimal ev.txRetries.toNat).length ≤ 10 :=
      length_decimal_le (by decide) (ev.txRetries.toNat_lt.trans (by decide))
    have hbyte : ∀ b, (hexByte b).length = 2 := fun _ => rfl
    have hall := length_fill_le stationFormat (stationArgs ev)
    have hliterals : (stationFormat.map fun p => p.text.length).sum = 34 := by decide
    simp only [stationArgs, List.map_cons, List.map_nil, List.sum_cons, List.sum_nil, hbyte]
      at hall ⊢
    omega
  · have htype : (signed (typeNumber ev.type)).length ≤ 2 := by
      cases ev.type <;> decide
    have hall := length_fill_le otherFormat (otherArgs ev)
    have hliterals : (otherFormat.map fun p => p.text.length).sum = 14 := by decide
    simp only [otherArgs, List.map_cons, List.map_nil, List.sum_cons, List.sum_nil] at hall ⊢
    omega

theorem nul_not_mem_line {ev : Event} (h : ev.Worded) : nul ∉ line ev := by
  have hnumber : ∀ n, nul ∉ decimal n := fun n => not_mem_decimal (by decide)
  have hsigned : ∀ i, nul ∉ signed i := fun i => not_mem_signed (by decide) (by decide)
  have hbyte : ∀ b, nul ∉ hexByte b := fun b => not_mem_hexByte (by decide)
  rw [line]
  split_ifs
  · refine not_mem_fill (by decide) ?_
    simp only [stationArgs, List.forall_mem_cons, hnumber, hsigned, hbyte, not_false_eq_true,
      List.not_mem_nil, false_implies, implies_true, and_self]
  · refine not_mem_fill (by decide) ?_
    simp only [otherArgs, List.forall_mem_cons, hsigned, h.1, not_false_eq_true,
      List.not_mem_nil, false_implies, implies_true, and_self]

theorem eventToString_of_le {ev : Event} (h : ev.Worded) {buf : List Char} {max : Nat}
    (hpos : 0 < max) (hmax : max ≤ buf.length) :
    ∃ out, eventToString (some ev) (some buf) max = .ok (some out) ∧
      Printed buf max (line ev) out := by
  rcases snprintf_of_le hpos hmax (nul_not_mem_line h) with ⟨out, hout, hprinted⟩
  refine ⟨out, ?_, hprinted⟩
  rw [eventToString, if_neg hpos.ne', hout]
  rfl

/-! ## Returned events -/

theorem worded_of_reason {ev : Event} (h : ev.reason = "") : ev.Worded := by
  rw [Event.Worded, h]
  exact ⟨List.not_mem_nil, by decide⟩

theorem worded_errorEvent (ev : Event) {len : Nat} (hlen : len < 2 ^ 63) :
    (errorEvent ev len).Worded := by
  have htext : (errorEvent ev len).reason.toList =
      "nl80211 attrs without MAC/signal (".toList ++ (decimal len ++ " bytes)".toList) := by
    rw [errorEvent, decimal, ← Nat.toList_repr, ← Nat.toString_eq_repr]
    simp only [String.toList_append, toString, List.append_assoc]
  have hnumber : nul ∉ decimal len := not_mem_decimal (by decide)
  have hdigits : (decimal len).length ≤ 19 :=
    length_decimal_le (by decide) (hlen.trans (by decide))
  rw [Event.Worded, htext]
  constructor
  · rw [List.mem_append, List.mem_append, not_or, not_or]
    exact ⟨by decide, hnumber, by decide⟩
  · have hhead : "nl80211 attrs without MAC/signal (".toList.length = 34 := by decide
    have htail : " bytes)".toList.length = 7 := by decide
    rw [List.length_append, List.length_append]
    omega

theorem worded_of_mem_feedEvents {D : List UInt8} (hD : D.length < 2 ^ 63) {ev : Event}
    (h : ev ∈ feedEvents D) : ev.Worded := by
  rw [feedEvents] at h
  split_ifs at h
  · rw [List.mem_singleton.1 h]
    exact worded_of_reason rfl
  · rw [List.mem_singleton.1 h, bareEvent]
    split_ifs
    · exact worded_of_reason (by rw [stationEvent_eq]; rfl)
    · exact worded_errorEvent _ hD
  · rcases List.mem_map.1 (List.mem_filter.1 h).1 with ⟨f, _, rfl⟩
    exact worded_of_reason (by rw [frameEvent, stationEvent_eq]; rfl)

theorem worded_of_run {role : Role} {config : Option Config} {c : Ctx} {out : List Event}
    (hrun : Run Step (parseCreateWithConfig role config) c out) : ∀ ev ∈ out, ev.Worded := by
  have hstart : ∀ ev ∈ (parseCreateWithConfig role config).queued, ev.Worded := by
    have hempty : (parseCreateWithConfig role config).queued = [] :=
      QueueCtx.queued_init _ _ _ _ _
    rw [hempty]
    exact fun ev hev => absurd hev List.not_mem_nil
  refine (hrun.safe (I := fun c => ∀ ev ∈ c.queued, ev.Worded) ?_ hstart).2
  rintro c call c' out hqueue ⟨hlong, hleads⟩
  refine (parser_lawful .lp64).leads_queued hleads ?_ hqueue
  intro D hcall hfed
  cases parseFeedInput_ok (hlong D hcall) hfed
  rw [QueueCtx.queued_pushAll, List.forall_mem_append]
  exact ⟨hqueue, fun ev hev =>
    worded_of_mem_feedEvents (hlong D hcall) (List.mem_of_mem_take hev)⟩

/-- In arrays of 112 characters or more the line of no event that is returned in a run is cut off,
and the lines of two such events, of one run or of two, are the same exactly if the events agree in
what is shown. -/
theorem returned_lines {role role' : Role} {config config' : Option Config} {c c' : Ctx}
    {evs evs' : List Event} (hrun : Run Step (parseCreateWithConfig role config) c evs)
    (hrun' : Run Step (parseCreateWithConfig role' config') c' evs') :
    ∀ ev ∈ evs, ∀ ev' ∈ evs', ∀ (buf buf' : List Char) (max max' : Nat),
      112 ≤ max → max ≤ buf.length → 112 ≤ max' → max' ≤ buf'.length →
        ∃ out out', eventToString (some ev) (some buf) max = .ok (some out) ∧
          eventToString (some ev') (some buf') max' = .ok (some out') ∧
          (textOf out = textOf out' ↔ SameShown ev ev') := by
  intro ev hev ev' hev' buf buf' max max' hmin hmax hmin' hmax'
  have hworded := worded_of_run hrun ev hev
  have hworded' := worded_of_run hrun' ev' hev'
  have hlen := length_line_le hworded
  have hlen' := length_line_le hworded'
  rcases eventToString_of_le hworded (by omega) hmax with ⟨out, hout, hprinted⟩
  rcases eventToString_of_le hworded' (by omega) hmax' with ⟨out', hout', hprinted'⟩
  refine ⟨out, out', hout, hout', ?_⟩
  rw [hprinted.text_of_lt (by omega), hprinted'.text_of_lt (by omega), line_eq_iff]

/-- A station and a buffer that names none. -/
theorem returned_lines_station : ∃ ev ev', ev.hasMac = true ∧ ev'.type = .eventError ∧
    ∀ (buf buf' : List Char) (max max' : Nat),
      112 ≤ max → max ≤ buf.length → 112 ≤ max' → max' ≤ buf'.length →
        ∃ out out', eventToString (some ev) (some buf) max = .ok (some out) ∧
          eventToString (some ev') (some buf') max' = .ok (some out') ∧
          (textOf out = textOf out' ↔ SameShown ev ev') := by
  rcases run_feed_next (fun _ _ => True) (c := parseCreate .collector) (D := rateStream 7)
    (by decide) (by decide) (QueueCtx.queued_init _ _ _ _ _) rfl trivial (fun _ => trivial)
    with ⟨c, hrun⟩
  rcases run_feed_next (fun _ _ => True) (c := parseCreate .collector) (D := [4, 0, 0, 0])
    (by decide) (by decide) (QueueCtx.queued_init _ _ _ _ _) rfl trivial (fun _ => trivial)
    with ⟨c', hrun'⟩
  have hstation : Run Step (parseCreateWithConfig .collector none) c _ :=
    hrun.mono fun _ _ _ _ hstep => hstep.1
  have herror : Run Step (parseCreateWithConfig .collector none) c' _ :=
    hrun'.mono fun _ _ _ _ hstep => hstep.1
  exact ⟨_, _, by decide, by decide,
    returned_lines hstation herror _ List.mem_cons_self _ List.mem_cons_self⟩

end Nl80211
end Netdiag
