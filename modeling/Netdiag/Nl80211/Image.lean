import Netdiag.Nl80211.Encode
import Netdiag.Parsers.Mcs

/-!
# Image — which station events a caller can be given

What attributes can say of a station obeys laws: it has a MAC address or a signal, levels are those
of a signed byte, and a field without its flag is as it was set up.  There are no other laws.  A
station event is returned in some run exactly if it keeps them, or is one that a synthetic frame
makes (`station_returned_iff`).
-/

namespace Netdiag
namespace Nl80211

open Lib
open Netdiag.Parser (Call)

/-! ## The laws -/

/-- What the attributes of a message or of a stream can say of a station. -/
structure Event.Reports (ev : Event) : Prop where
  type : ev.type = .eventStation
  named : ev.named = true
  mac : ev.hasMac = false → ev.clientMac = Vector.replicate 6 0
  signal : ev.hasSignal = false → ev.signalDbm = 0
  level : ∃ v : Int8, ev.signalDbm = v.toInt32
  levelAvg : ∃ v : Int8, ev.signalAvgDbm = v.toInt32
  mcs : ev.hasMcs = false → ev.mcsIndex = 0xFF
  snr : ev.snrDb = 0
  reason : ev.reason = ""

/-- What a synthetic frame says: any level and a ratio of signal to noise, but no counter beside
the retries. -/
def Event.Synthesized (ev : Event) : Prop :=
  ∃ clientMac signalDbm snrDb mcsIndex txRetries, ev =
    { type := .eventStation
      clientMac := clientMac
      signalDbm := signalDbm
      snrDb := snrDb
      mcsIndex := mcsIndex
      txRetries := txRetries
      hasMac := true
      hasSignal := true
      hasMcs := mcsIndex != 0xFF }

/-! ## The events of a buffer keep them -/

theorem exists_level (payload : Option (List UInt8)) :
    ∃ v : Int8, payload.elim 0 (·.getD 0 0 |>.toInt8.toInt32) = v.toInt32 := by
  cases payload with
  | none => exact ⟨0, rfl⟩
  | some xs => exact ⟨_, rfl⟩

theorem reports_stationEvent {as : List Attr} (h : (stationEvent as).named = true) :
    (stationEvent as).Reports := by
  have hnamed := h
  rw [stationEvent_eq] at hnamed ⊢
  refine ⟨rfl, hnamed, ?_, ?_, exists_level _, exists_level _, ?_, rfl, rfl⟩
  · simp only [Event.setTop, stationInit]
    cases lastAttr attrMac 6 as <;> simp
  · simp only [Event.setTop, Event.setSta, Event.setRate, stationInit]
    cases lastAttr staInfoSignal 1 (nested attrStaInfo as) <;> simp
  · simp only [Event.setTop, Event.setSta, Event.setRate, stationInit]
    cases lastMcs (nested staInfoTxBitrate (nested attrStaInfo as)) <;> simp

theorem of_mem_feedEvents {D : List UInt8} {ev : Event} (hmem : ev ∈ feedEvents D)
    (h : ev.type = .eventStation) : ev.Reports ∨ ev.Synthesized := by
  rw [feedEvents] at hmem
  split_ifs at hmem with hsynth hbare
  · obtain rfl := List.mem_singleton.1 hmem
    exact .inr ⟨_, _, _, _, _, rfl⟩
  · obtain rfl := List.mem_singleton.1 hmem
    rw [bareEvent] at h ⊢
    by_cases hnamed : (stationEvent (attrs D)).named = true
    · rw [if_pos hnamed]
      exact .inl (reports_stationEvent hnamed)
    · -- A stream that names no station makes an error.
      rw [if_neg hnamed] at h
      cases h
  · rcases List.mem_filter.1 hmem with ⟨hframe, hnamed⟩
    rcases List.mem_map.1 hframe with ⟨f, _, rfl⟩
    exact .inl (reports_stationEvent hnamed)

/-! ## A message for every event that keeps them -/

/-- The values of the event as a record, whose MAC address is not looked at. -/
def Event.toRec (ev : Event) : StaRec where
  mac := ev.clientMac
  signal := if ev.hasSignal then some ev.signalDbm.toInt8 else none
  signalAvg := some ev.signalAvgDbm.toInt8
  txRetries := some ev.txRetries
  txFailed := some ev.txFailed
  rxBytes := some ev.rxBytes
  txBytes := some ev.txBytes
  mcs := if ev.hasMcs then some (.ht ev.mcsIndex) else none
  freq := some ev.frequencyMhz

/-- The attributes of the event: the MAC address is left out if there is none. -/
def Event.topAttrs (ev : Event) : List Attr :=
  optAttr attrMac (if ev.hasMac then some ev.clientMac.toList else none) ++
    (optAttr attrStaInfo (some (putSta ev.toRec)) ++
      optAttr attrWiphyFreq (some (wr32Le ev.frequencyMhz)))

def Event.message (ev : Event) : List UInt8 :=
  putMsg testHeader (putAll ev.topAttrs)

theorem Event.plain_topAttrs (ev : Event) : Plain topTypes 105 ev.topAttrs := by
  have hmac : ∀ xs ∈ (if ev.hasMac then some ev.clientMac.toList else none), xs.length ≤ 105 := by
    intro xs hxs
    cases hflag : ev.hasMac with
    | true =>
        rw [hflag] at hxs
        cases hxs
        rw [Vector.length_toList]
        decide
    | false =>
        rw [hflag] at hxs
        cases hxs
  have hsta : ∀ xs ∈ some (putSta ev.toRec), xs.length ≤ 105 := by
    rintro xs ⟨⟩
    exact length_putSta_le ev.toRec
  have hfreq : ∀ xs ∈ some (wr32Le ev.frequencyMhz), xs.length ≤ 105 := by
    rintro xs ⟨⟩
    rw [length_wr32Le]
    decide
  exact (plain_optAttr (by decide) hmac).append
    ((plain_optAttr (by decide) hsta).append (plain_optAttr (by decide) hfreq))

/-- The nest of the station comes back as it was laid out. -/
theorem attrs_putSta (r : StaRec) : attrs (putSta r) = staAttrs r (some (putAll (rateAttrs r))) :=
  (plain_staAttrs r (by decide) (length_putRate_le r)).attrs_putAll (by decide) (by decide)

theorem toInt32_toInt8 {v : Int32} (h : ∃ w : Int8, v = w.toInt32) : v.toInt8.toInt32 = v := by
  rcases h with ⟨w, rfl⟩
  rw [Int8.toInt8_toInt32]

theorem frameEvent_message {ev : Event} (h : ev.Reports) : frameEvent ev.message = ev := by
  have hrate : OptNest rateTypes (rateAttrs ev.toRec) (some (putAll (rateAttrs ev.toRec))) :=
    (plain_rateAttrs ev.toRec).nest (by decide) (by decide)
  have hnested : nested attrStaInfo ev.topAttrs =
      staAttrs ev.toRec (some (putAll (rateAttrs ev.toRec))) := by
    rw [Event.topAttrs]
    simp +decide only [nested_append, nested_optAttr, if_true, if_false, List.nil_append,
      List.append_nil]
    exact attrs_putSta ev.toRec
  have hmac : lastAttr attrMac 6 ev.topAttrs =
      if ev.hasMac then some ev.clientMac.toList else none := by
    rw [Event.topAttrs]
    simp +decide only [lastAttr_append, lastAttr_optAttr, if_true, if_false, Option.none_or]
    cases ev.hasMac <;> simp [Option.filter]
  have hfreq : lastAttr attrWiphyFreq 4 ev.topAttrs = some (wr32Le ev.frequencyMhz) := by
    rw [Event.topAttrs]
    simp +decide only [lastAttr_append, lastAttr_optAttr, if_true, if_false, Option.or_none]
    simp [Option.filter]
  rw [Event.message, frameEvent, msgAttrs, drop_putMsg,
    ev.plain_topAttrs.attrs_putAll (by decide) (by decide), stationEvent_eq, Event.setTop, hnested,
    setSta_staAttrs hrate, hmac, hfreq]
  have hread : le32At (wr32Le ev.frequencyMhz) 0 = ev.frequencyMhz := le32_wr32Le _
  have hlevel := toInt32_toInt8 h.level
  have hlevelAvg := toInt32_toInt8 h.levelAvg
  have hmacZero := h.mac
  have hsignalZero := h.signal
  have hmcsUnknown := h.mcs
  rcases ev with ⟨type, mac, signal, avg, retries, failed, rx, tx, mcs, snr, freq, hasMac,
    hasSignal, hasMcs, reason⟩
  obtain rfl : type = .eventStation := h.type
  obtain rfl : snr = 0 := h.snr
  obtain rfl : reason = "" := h.reason
  dsimp only at *
  -- A field without its flag is as the event was set up.
  cases hasMac <;> cases hasSignal <;> cases hasMcs <;>
    simp_all [StaRec.setSta, Event.toRec, stationInit, McsRec.index, bytesOf_toList]

theorem length_message_lt (ev : Event) : ev.message.length < 0x31313238 := by
  have hbody := ev.plain_topAttrs.length_putAll_le (by decide)
  have hmac := length_optAttr_le attrMac (if ev.hasMac then some ev.clientMac.toList else none)
  have hsta := length_optAttr_le attrStaInfo (some (putSta ev.toRec))
  have hfreq := length_optAttr_le attrWiphyFreq (some (wr32Le ev.frequencyMhz))
  have hcount : ev.topAttrs.length ≤ 3 := by
    rw [Event.topAttrs, List.length_append, List.length_append]
    omega
  rw [Event.message, length_putMsg]
  omega

/-- The synthetic frame of these values. -/
def synthFrame (clientMac : Vector UInt8 6) (signalDbm : Int32) (snrDb : Int8) (mcsIndex : UInt8)
    (txRetries : UInt32) : List UInt8 :=
  wr32Be synthMagic ++ (clientMac.toList ++ (wr32Be signalDbm.toUInt32 ++
    ([snrDb.toUInt8, mcsIndex] ++ wr32Be txRetries)))

theorem exists_six (v : Vector UInt8 6) : ∃ a b c d e f, v = #v[a, b, c, d, e, f] := by
  refine ⟨v[0], v[1], v[2], v[3], v[4], v[5], Vector.ext fun i hi => ?_⟩
  match i, hi with
  | 0, _ | 1, _ | 2, _ | 3, _ | 4, _ | 5, _ => rfl

theorem length_synthFrame (clientMac : Vector UInt8 6) (signalDbm : Int32) (snrDb : Int8)
    (mcsIndex : UInt8) (txRetries : UInt32) :
    (synthFrame clientMac signalDbm snrDb mcsIndex txRetries).length = 20 := by
  simp [synthFrame]

theorem feedEvents_synthFrame (clientMac : Vector UInt8 6) (signalDbm : Int32) (snrDb : Int8)
    (mcsIndex : UInt8) (txRetries : UInt32) :
    feedEvents (synthFrame clientMac signalDbm snrDb mcsIndex txRetries) =
      [{ type := .eventStation, clientMac, signalDbm, snrDb, mcsIndex, txRetries, hasMac := true,
         hasSignal := true, hasMcs := mcsIndex != 0xFF }] := by
  rcases exists_six clientMac with ⟨a, b, c, d, e, f, rfl⟩
  have hmagic : be32At (synthFrame #v[a, b, c, d, e, f] signalDbm snrDb mcsIndex txRetries) 0 =
      synthMagic := be32_wr32Be synthMagic
  have hsignal : be32At (synthFrame #v[a, b, c, d, e, f] signalDbm snrDb mcsIndex txRetries) 10 =
      signalDbm.toUInt32 := be32_wr32Be _
  have hretries : be32At (synthFrame #v[a, b, c, d, e, f] signalDbm snrDb mcsIndex txRetries) 16 =
      txRetries := be32_wr32Be _
  rw [feedEvents, if_pos ⟨Nat.le_refl 20, hmagic⟩, synthEvent, hsignal, hretries]
  rfl

/-! ## Runs -/

/-- Some buffer makes the event, and no other. -/
theorem exists_buffer {ev : Event} (h : ev.Reports ∨ ev.Synthesized) :
    ∃ D : List UInt8, D.length < 0x31313238 ∧ feedEvents D = [ev] := by
  rcases h with h | ⟨clientMac, signalDbm, snrDb, mcsIndex, txRetries, rfl⟩
  · have hlen := length_message_lt ev
    have hitem : msgFraming.Item ev.message := by
      rw [Event.message, length_putMsg] at hlen
      exact item_putMsg _ (by omega)
    have hfull : 20 ≤ ev.message.length := by
      rw [Event.message, length_putMsg]
      exact Nat.le_add_right 20 _
    have hpacks : msgFraming.Packs [ev.message] ev.message := .last hitem
    have hword : (nlmsgLen ev.message).toNat = ev.message.length :=
      (msgFraming_size_eq_some.1 hitem).2.2.2
    -- The message is too short for its length to be the magic of a synthetic frame.
    have hsynth : ¬ Synthetic ev.message := by
      refine not_synthetic_of_word ?_
      rw [UInt32.lt_iff_toNat_lt, hword]
      exact hlen
    have hframes : frames ev.message = [ev.message] := Framing.split_of_packs hpacks
    -- A buffer of bare attributes has no messages.
    have hbare : ¬ Bare ev.message := by
      intro hbare
      rw [frames_of_bare hbare] at hframes
      cases hframes
    have hone : [ev.message].filter (20 ≤ ·.length) = [ev.message] :=
      List.filter_cons_of_pos (decide_eq_true hfull)
    refine ⟨ev.message, hlen, ?_⟩
    rw [feedEvents, if_neg hsynth, if_neg hbare, fullFrames, hframes, hone, List.map_singleton,
      frameEvent_message h, List.filter_cons_of_pos h.named, List.filter_nil]
  · refine ⟨synthFrame clientMac signalDbm snrDb mcsIndex txRetries, ?_,
      feedEvents_synthFrame _ _ _ _ _⟩
    rw [length_synthFrame]
    decide

/-- The station events that a caller is given in the runs of a context of any size are those that
keep the laws, and those of synthetic frames. -/
theorem station_returned_iff (role : Role) (config : Option Config) {ev : Event}
    (h : ev.type = .eventStation) :
    (∃ c out, Run Step (parseCreateWithConfig role config) c out ∧ ev ∈ out) ↔
      ev.Reports ∨ ev.Synthesized := by
  have hempty : (parseCreateWithConfig role config).queued = [] :=
    QueueCtx.queued_init _ _ _ _ _
  constructor
  · rintro ⟨c, out, hrun, hmem⟩
    have hstart : ∀ e ∈ (parseCreateWithConfig role config).queued,
        e.type = .eventStation → e.Reports ∨ e.Synthesized := by
      rw [hempty]
      exact fun e he => absurd he List.not_mem_nil
    have hall : ∀ e ∈ out, e.type = .eventStation → e.Reports ∨ e.Synthesized := by
      refine (hrun.safe (I := fun c => ∀ e ∈ c.queued, e.type = .eventStation →
        e.Reports ∨ e.Synthesized) ?_ hstart).2
      rintro c call c' out hqueue ⟨hlong, hleads⟩
      refine (parser_lawful .lp64).leads_queued hleads ?_ hqueue
      intro D hcall hfed
      cases parseFeedInput_ok (hlong D hcall) hfed
      rw [QueueCtx.queued_pushAll]
      -- What was queued before, and what the buffer makes.
      intro e he
      rcases List.mem_append.1 he with he | he
      · exact hqueue e he
      · exact of_mem_feedEvents (List.mem_of_mem_take he)
    exact hall ev hmem h
  · intro hlaws
    rcases exists_buffer hlaws with ⟨D, hlen, hevents⟩
    have hfree : 0 < (parseCreateWithConfig role config).free := by
      rw [QueueCtx.free, hempty]
      exact (parseCreateWithConfig role config).qsz_pos
    have hshort : ∀ f ∈ frames D, f.length ≤ maxMsg := by
      intro f hf
      have hle := length_le_of_mem_frames hf
      rw [maxMsg]
      omega
    rcases run_feed_next (fun _ _ => True) (by omega) hshort hempty
      (by rw [hevents, List.take_of_length_le hfree]) trivial (fun _ => trivial) with ⟨c', hrun⟩
    exact ⟨c', [ev], hrun.mono fun _ _ _ _ hstep => hstep.1, List.mem_singleton_self ev⟩

/-- A station that is known by its signal alone. -/
theorem station_returned_signal :
    ∃ c out, Run Step (parseCreate .collector) c out ∧
      ({ type := .eventStation, signalDbm := -62, mcsIndex := 0xFF, hasSignal := true } : Event) ∈
        out := by
  refine (station_returned_iff .collector none rfl).2 (.inl ⟨rfl, rfl, fun _ => rfl, ?_,
    ⟨-62, rfl⟩, ⟨0, rfl⟩, fun _ => rfl, rfl, rfl⟩)
  intro hsignal
  cases hsignal

end Nl80211
end Netdiag
