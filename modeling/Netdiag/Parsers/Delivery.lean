import Netdiag.Nfct.Sources
import Netdiag.Nl80211.Feed
import Netdiag.Nl80211.Fields

/-!
# Delivery — from the messages of a buffer to the events of `next_event`

A context with an empty queue is fed a buffer of complete messages and then drained.  The queue is
bounded and an event that finds it full is dropped, so the caller sees as many events as the queue
has room for, each the event of one of the messages and in their order (`feed_drain`).
-/

namespace Netdiag

open Lib

/-! ## Draining a queue that was filled from empty -/

/-- The caller sees the events in order, as many as the queue holds. -/
def Delivers {R E : Type} (c : QueueCtx R E) (es : List E) (c' : QueueCtx R E) : Prop :=
  (∃ seen, c'.Drains seen ∧ seen.length = min es.length c.qsz ∧ seen.Sublist es) ∧
    (es.length ≤ c.qsz → c'.Drains es)

theorem delivers_pushAll {R E : Type} {c : QueueCtx R E} (hempty : c.queued = [])
    (es : List E) : Delivers c es (c.pushAll es) := by
  have hqueued : (c.pushAll es).queued = es.take c.qsz := by
    rw [QueueCtx.queued_pushAll, hempty, List.nil_append, QueueCtx.free, hempty]
    rfl
  have hdrains := (c.pushAll es).drains_queued
  rw [hqueued] at hdrains
  constructor
  · refine ⟨_, hdrains, ?_, List.take_sublist _ _⟩
    rw [List.length_take, Nat.min_comm]
  · intro hroom
    rwa [List.take_of_length_le hroom] at hdrains

/-! ## Station messages with a MAC attribute -/

namespace Nl80211

/-- The message carries the MAC address of a station. -/
def HasMacAttr (m : List UInt8) : Prop :=
  ∃ a ∈ msgAttrs m, a.type = attrMac ∧ 6 ≤ a.payload.length

theorem HasMacAttr.named {m : List UInt8} (h : HasMacAttr m) : (frameEvent m).named = true := by
  rw [frameEvent, named_stationEvent_iff]
  exact .inl h

theorem HasMacAttr.full {m : List UInt8} (h : HasMacAttr m) : 20 ≤ m.length := by
  by_contra hshort
  rcases h with ⟨a, ha, _⟩
  have hnil : m.drop 20 = [] := List.drop_eq_nil_of_le (by omega)
  rw [msgAttrs, hnil] at ha
  cases ha

end Nl80211

/-! ## Feeding and draining -/

theorem Nfct.feedEvents_of_packs {ms : List (List UInt8)} {D : List UInt8}
    (hpacks : msgFraming.Packs ms D) (hfull : ∀ m ∈ ms, 20 ≤ m.length)
    (hsynth : ¬ Nfct.Synthetic D) : Nfct.feedEvents D = ms.map Nfct.frameEvent := by
  have hframes : frames D = ms := Framing.split_of_packs hpacks
  have hall : ms.filter (20 ≤ ·.length) = ms :=
    List.filter_eq_self.2 fun m hm => decide_eq_true (hfull m hm)
  rw [Nfct.feedEvents, if_neg hsynth, fullFrames, hframes, hall]

theorem Nl80211.feedEvents_of_packs {ms : List (List UInt8)} {D : List UInt8}
    (hpacks : msgFraming.Packs ms D) (hmac : ∀ m ∈ ms, Nl80211.HasMacAttr m)
    (hsynth : ¬ Nl80211.Synthetic D) (hne : ms ≠ []) :
    Nl80211.feedEvents D = ms.map Nl80211.frameEvent := by
  have hframes : frames D = ms := Framing.split_of_packs hpacks
  -- A buffer that starts with a message is not taken for a stream of attributes.
  have hframed : ¬ Nl80211.Bare D := by
    intro hbare
    rw [Nl80211.frames_of_bare hbare] at hframes
    exact hne hframes.symm
  have hall : ms.filter (20 ≤ ·.length) = ms :=
    List.filter_eq_self.2 fun m hm => decide_eq_true (hmac m hm).full
  have hnamed : (ms.map Nl80211.frameEvent).filter Nl80211.Event.named =
      ms.map Nl80211.frameEvent := by
    refine List.filter_eq_self.2 fun ev hev => ?_
    rcases List.mem_map.1 hev with ⟨m, hm, rfl⟩
    exact (hmac m hm).named
  rw [Nl80211.feedEvents, if_neg hsynth, if_neg hframed, fullFrames, hframes, hall, hnamed]

/-- What the caller sees of a buffer of complete messages that was fed to an empty context. -/
theorem feed_drain {ms : List (List UInt8)} {D : List UInt8} (hD : D.length < 2 ^ 63)
    (hne : ms ≠ []) (hpacks : msgFraming.Packs ms D) :
    (∀ c c', c.queued = [] → (∀ m ∈ ms, 20 ≤ m.length) → ¬ Nfct.Synthetic D →
      Nfct.feedInput .lp64 (some c) (some D) = .ok (0, some c') →
        Delivers c (ms.map Nfct.frameEvent) c') ∧
    (∀ c c', c.queued = [] → (∀ m ∈ ms, Nl80211.HasMacAttr m) → ¬ Nl80211.Synthetic D →
      Nl80211.parseFeedInput .lp64 (some c) (some D) = .ok (0, some c') →
        Delivers c (ms.map Nl80211.frameEvent) c') := by
  -- In both parsers, the call has queued the events of the messages from an empty queue on.
  constructor
  · intro c c' hempty hfull hsynth hfeed
    have hresult := Nfct.feedInput_ok hD hfeed
    rw [Nfct.feedEvents_of_packs hpacks hfull hsynth] at hresult
    cases hresult
    exact delivers_pushAll hempty _
  · intro c c' hempty hmac hsynth hfeed
    have hresult := Nl80211.parseFeedInput_ok hD hfeed
    rw [Nl80211.feedEvents_of_packs hpacks hmac hsynth hne] at hresult
    cases hresult
    exact delivers_pushAll hempty _

theorem packs_emptyMessage : msgFraming.Packs [emptyMessage, emptyMessage]
    (emptyMessage ++ ([] ++ emptyMessage)) :=
  .cons (by decide) (by decide) (.last (by decide))

/-- A context whose queue has one slot. -/
def oneSlot : Nfct.Ctx :=
  Nfct.createWithConfig .collector (some { eventQueueSize := 1 })

/-- Two messages and room for one event: the second is lost although the call returns `0`. -/
theorem feed_drain_oneSlot :
    ¬ ∀ (c c' : Nfct.Ctx) (ms : List (List UInt8)) (D : List UInt8), c.queued = [] → ms ≠ [] →
      msgFraming.Packs ms D → (∀ m ∈ ms, 20 ≤ m.length) →
        Nfct.feedInput .lp64 (some c) (some D) = .ok (0, some c') →
          c'.Drains (ms.map Nfct.frameEvent) := by
  intro hclaim
  have hempty : oneSlot.queued = [] := Nfct.queued_createWithConfig _ _
  have hroom : oneSlot.free = 1 := by decide
  have hfeed := Nfct.feedInput_eq (D := emptyMessage ++ ([] ++ emptyMessage)) (by decide)
    (by decide) oneSlot
  have hdrains := hclaim _ _ _ _ hempty (by decide) packs_emptyMessage (by decide) hfeed
  have hlen := congrArg List.length (hdrains.eq_queued {})
  rw [QueueCtx.queued_pushAll, hempty, hroom, List.nil_append, List.length_map,
    List.length_take] at hlen
  exact absurd hlen (Nat.ne_of_gt (Nat.lt_succ_of_le (Nat.min_le_left 1 _)))

/-- A context whose queue has three slots. -/
def threeSlots : Nfct.Ctx :=
  Nfct.createWithConfig .collector (some { eventQueueSize := 3 })

/-- Two stations, the second one with a signal of -50 dBm. -/
def stationMessages : List (List UInt8) :=
  [[30, 0, 0, 0, 0, 1, 0, 0, 0, 0, 0, 0, 0, 0, 0, 0, 19, 0, 0, 0,
      10, 0, 6, 0, 0xaa, 0xbb, 0xcc, 0xdd, 0xee, 0xff],
    [44, 0, 0, 0, 0, 1, 0, 0, 0, 0, 0, 0, 0, 0, 0, 0, 19, 0, 0, 0,
      10, 0, 6, 0, 0x02, 0, 0, 0, 0, 0x07, 0, 0, 12, 0, 21, 0x80, 5, 0, 7, 0, 0xce, 0, 0, 0]]

/-- Four connections with room for three of their events, and two stations with room for both. -/
theorem feed_drain_stationMessages :
    (∃ c', Nfct.feedInput .lp64 (some threeSlots) (some (padMsgs Nfct.trackedMessages)) =
        .ok (0, some c') ∧ Delivers threeSlots (Nfct.trackedMessages.map Nfct.frameEvent) c') ∧
    ∃ c', Nl80211.parseFeedInput .lp64 (some (Nl80211.parseCreate .collector))
        (some (padMsgs stationMessages)) = .ok (0, some c') ∧
      Delivers (Nl80211.parseCreate .collector) (stationMessages.map Nl80211.frameEvent) c' := by
  constructor
  · have hpadded := Nfct.padded_trackedMessages
    have hlen : (padMsgs Nfct.trackedMessages).length < 2 ^ 63 := by decide +kernel
    have hsynth : ¬ Nfct.Synthetic (padMsgs Nfct.trackedMessages) := by decide +kernel
    have hfull : ∀ m ∈ Nfct.trackedMessages, 20 ≤ m.length ∧ m.length ≤ maxMsg := by
      decide +kernel
    generalize padMsgs Nfct.trackedMessages = D at *
    have hshort : ∀ f ∈ frames D, f.length ≤ maxMsg := by
      rw [frames, hpadded.split_eq]
      exact fun m hm => (hfull m hm).2
    have hfeed := Nfct.feedInput_eq hlen hshort threeSlots
    exact ⟨_, hfeed, (feed_drain hlen (by decide) hpadded.packs).1 _ _
      (Nfct.queued_createWithConfig _ _) (fun m hm => (hfull m hm).1) hsynth hfeed⟩
  · have hpadded : msgFraming.Padded stationMessages (padMsgs stationMessages) :=
      padded_padMsgs (by decide)
    have hlen : (padMsgs stationMessages).length < 2 ^ 63 := by decide
    have hsynth : ¬ Nl80211.Synthetic (padMsgs stationMessages) := by decide
    have hshort : ∀ m ∈ stationMessages, m.length ≤ maxMsg := by decide
    have hmac : ∀ m ∈ stationMessages, Nl80211.HasMacAttr m := by
      simp only [Nl80211.HasMacAttr]
      decide +kernel
    generalize padMsgs stationMessages = D at *
    have hfeed := Nl80211.parseFeedInput_eq hlen
      (by rw [frames, hpadded.split_eq]; exact hshort) (Nl80211.parseCreate .collector)
    exact ⟨_, hfeed, (feed_drain hlen (by decide) hpadded.packs).2 _ _
      (QueueCtx.queued_init _ _ _ _ _) hmac hsynth hfeed⟩

end Netdiag
