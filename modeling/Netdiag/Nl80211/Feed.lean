import Netdiag.Netlink.Walk
import Netdiag.Nl80211.Decode

/-!
# Feed — feeding a buffer to a station context

What `nl80211_parse_feed_input` does to a context on a 64-bit platform, in terms of the reference
decoder of `Decode`: it queues the events of the buffer one after the other, as long as there is
room.
-/

namespace Netdiag
namespace Nl80211

open Lib

/-! ## The message loop -/

/-- Where no message stands, the loop of `parse_nl80211_messages` ends. -/
theorem messagesTurn_of_none {D : List UInt8} (hD : D.length < 2 ^ 63) {off : Nat}
    (hoff : msgFraming.Offset D off) (hnone : msgFraming.size (D.drop off) = none) (c : Ctx) :
    messagesTurn .lp64 D (off, c) = .ok (.leave c) := by
  have hle := msgOffset_le hoff
  have hround := roundUp4_le D.length
  have hmod : Platform.lp64.sizeMod = 2 ^ 64 := rfl
  rw [messagesTurn, messagesTurnWith, Platform.add_of_lt (by omega)]
  by_cases hguard : off + 16 ≤ D.length
  · have hhere : At D off (D.drop off) := List.prefix_rfl
    have hlen : (D.drop off).length = D.length - off := List.length_drop
    rw [if_pos hguard, hhere.rd32Le_zero (by omega)]
    exact if_pos (bad_header_of_none (by omega) hguard hnone)
  · exact if_neg hguard

/-- The attributes of a message lie in the buffer, and the code computes their fold. -/
theorem parseTopAttrs_msg {p : Platform} {D : List UInt8} {off n : Nat}
    (hsome : msgFraming.size (D.drop off) = some n) (hfit : n - 20 + 2 ^ 16 ≤ p.sizeMod) :
    parseTopAttrs p D (off + 20) (n - 20) stationInit =
      .ok (frameEvent ((D.drop off).take n)) := by
  rcases at_msgBody hsome with ⟨hat, hlen⟩
  rw [← hlen] at hfit ⊢
  exact parseTopAttrs_eq stationInit hat hfit

theorem messagesWalk {D : List UInt8} (hD : D.length < 2 ^ 63) :
    Walk64 D (messagesTurn .lp64 D) receive where
  leaves := fun hoff hnone => messagesTurn_of_none hD hoff hnone _
  receives := by
    intro off n c hsome
    have hend := Framing.add_size_le hsome
    have hmod : Platform.lp64.sizeMod = 2 ^ 64 := rfl
    have halign : (nlaAlign (nlmsgLen (D.drop off))).toNat < 2 ^ 32 := UInt32.toNat_lt _
    rw [messagesTurn_of_some (by omega) hsome
      (fun _ => parseTopAttrs_msg hsome (by omega)) c, Platform.add_of_lt (by omega)]

/-- Receiving the messages in order queues the events that have a MAC address or a signal. -/
theorem foldl_receive (c : Ctx) (fs : List (List UInt8)) :
    fs.foldl receive c =
      c.pushAll (((fs.filter (20 ≤ ·.length)).map frameEvent).filter Event.named) := by
  rw [QueueCtx.pushAll, List.foldl_filter, List.foldl_map, List.foldl_filter]
  congr 1
  funext c f
  rw [receive]
  by_cases hfull : 20 ≤ f.length
  · simp [hfull]
  · simp [hfull]

theorem messagesLoop_eq {D : List UInt8} (hD : D.length < 2 ^ 63)
    (hshort : ∀ f ∈ frames D, f.length ≤ maxMsg) (c : Ctx) :
    Loop.exec (messagesTurn .lp64 D) .stuck (D.length + 2) (0, c) =
      .ok (c.pushAll (((fullFrames D).map frameEvent).filter Event.named)) := by
  rw [(messagesWalk hD).exec_eq hshort, foldl_receive]
  rfl

/-! ## Bare streams and framed buffers -/

/-- No message stands at the front of a bare stream. -/
theorem frames_of_bare {D : List UInt8} (hbare : Bare D) : frames D = [] := by
  apply Framing.split_of_none
  cases hsome : msgFraming.size D with
  | none => rfl
  | some n =>
      exfalso
      rcases msgFraming_size_eq_some.1 hsome with ⟨_, hmin, hmax, hn⟩
      rcases hbare.2 with hsmall | hlarge
      · rw [UInt32.lt_iff_toNat_lt, hn, show (16 : UInt32).toNat = 16 from rfl] at hsmall
        omega
      · omega

/-- The two ways through `parse_nl80211_messages`. -/
theorem parseNl80211Messages_eq (p : Platform) (D : List UInt8) (c : Ctx) :
    parseNl80211Messages p D c =
      if Bare D then
        parseTopAttrs p D 0 D.length stationInit >>= fun ev =>
          .ok (qpush c (if ev.named then ev else errorEvent ev D.length)).1
      else Loop.exec (messagesTurn p D) .stuck (D.length + 2) (0, c) := by
  have hbranch : ∀ ev : Event,
      (if ev.hasMac || ev.hasSignal then .ok (qpush c ev).1
        else .ok (qpush c (errorEvent ev D.length)).1 : Except Fault Ctx) =
      .ok (qpush c (if ev.named then ev else errorEvent ev D.length)).1 := by
    intro ev
    rw [Event.named]
    split_ifs <;> rfl
  rw [parseNl80211Messages]
  by_cases hlen : D.length ≥ nlaHdrlen
  · have hread := (At.whole D).rd32Le_zero hlen
    rw [if_pos hlen, hread, ← nlmsgLen]
    -- The first word decides between the two ways.
    by_cases hword : nlmsgLen D < 16 ∨ (nlmsgLen D).toNat > D.length
    · have hbare : Bare D := ⟨hlen, hword⟩
      rw [if_pos hbare]
      simp only [bind, Except.bind, pure, Except.pure, hword, decide_true, if_true, hbranch]
    · have hframed : ¬ Bare D := fun h => hword h.2
      rw [if_neg hframed]
      simp only [bind, Except.bind, pure, Except.pure, hword, decide_false, Bool.false_eq_true,
        if_false]
  · have hframed : ¬ Bare D := fun h => hlen h.1
    rw [if_neg hlen, if_neg hframed]
    rfl

/-- A buffer that is one message. -/
theorem parseNl80211Messages_of_item {p : Platform} {D : List UInt8} (hitem : msgFraming.Item D)
    (hfull : 20 ≤ D.length) (hfit : D.length + 2 ^ 16 ≤ 2 ^ 32) (c : Ctx) :
    parseNl80211Messages p D c = .ok (receive c D) := by
  have hmod := p.le_sizeMod
  have hsome : msgFraming.size (D.drop 0) = some D.length := by
    rw [List.drop_zero]
    exact hitem
  have hframed : ¬ Bare D := by
    intro hbare
    have hnone := frames_of_bare hbare
    rw [frames, Framing.split_of_some hitem] at hnone
    cases hnone
  have hround := le_roundUp4 D.length
  have hround' := roundUp4_le D.length
  -- The first turn receives the message, the second finds less than a header.
  have hfirst := messagesTurn_of_some (p := p) (by omega) hsome
    (fun _ => parseTopAttrs_msg hsome (by omega)) c
  rw [nlaAlign_of_short hsome (by rw [maxMsg]; omega), Platform.add_of_lt (by omega),
    List.drop_zero, List.take_length] at hfirst
  have hsecond : ∀ c, messagesTurn p D (0 + roundUp4 D.length, c) = .ok (.leave c) := by
    intro c
    rw [messagesTurn, messagesTurnWith, Platform.add_of_lt (by omega), if_neg (by omega)]
    rfl
  have hrun : Loop.run (messagesTurn p D) (D.length + 2) (0, c) = some (.ok (receive c D)) := by
    rw [Loop.run_again hfirst, Loop.run_leave (hsecond _)]
  rw [parseNl80211Messages_eq, if_neg hframed, Loop.exec_of_run hrun]

/-- The length of the first message is read from the bytes that would hold the magic word. -/
theorem not_synthetic_of_word {D : List UInt8} (hword : nlmsgLen D < 0x31313238) :
    ¬ Synthetic D := by
  rintro ⟨_, hmagic⟩
  have hbytes : be32At D 0 = be32 0x38 0x32 0x31 0x31 := hmagic
  -- The magic word is "8211", and read as a length these bytes are `0x31313238`.
  rw [nlmsgLen_of_be32At hbytes] at hword
  exact absurd hword (by decide)

/-! ## The synthetic path -/

theorem trySynth_eq (D : List UInt8) (c : Ctx) :
    trySynth D c =
      .ok (if Synthetic D then (c.pushAll [synthEvent D], true) else (c, false)) := by
  rw [trySynth]
  by_cases hlen : D.length < 20
  · have hno : ¬ Synthetic D := fun h => by
      have hle := h.1
      omega
    rw [if_pos hlen, if_neg hno]
    rfl
  · rw [if_neg hlen, rd32Be_of_le (by omega : 0 + 4 ≤ D.length)]
    by_cases hmagic : be32At D 0 = synthMagic
    · have hyes : Synthetic D := ⟨by omega, hmagic⟩
      rw [memcpy_of_le (by omega : 4 + 6 ≤ D.length) (by decide), rd32BeS,
        rd32Be_of_le (by omega : 10 + 4 ≤ D.length), rd_of_lt (by omega : 14 + 1 ≤ D.length),
        rd_of_lt (by omega : 15 + 1 ≤ D.length), rd32Be_of_le (by omega : 16 + 4 ≤ D.length),
        if_pos hyes]
      simp only [bind, Except.bind, if_neg (not_not.2 hmagic)]
      rfl
    · have hno : ¬ Synthetic D := fun h => hmagic h.2
      rw [if_neg hno]
      simp only [bind, Except.bind, if_pos hmagic]
      rfl

/-! ## The public function -/

/-- A buffer that the synthetic path does not take goes to `parse_nl80211_messages`. -/
theorem parseFeedInput_of_not_synthetic {D : List UInt8} (hne : D.length ≠ 0)
    (hsynth : ¬ Synthetic D) (p : Platform) (c : Ctx) :
    parseFeedInput p (some c) (some D) =
      parseNl80211Messages p D c >>= fun c => .ok (0, some c) := by
  rw [parseFeedInput, if_neg hne, trySynth_eq, if_neg hsynth]
  rfl

/-- A synthetic frame is taken whatever messages its bytes would make. -/
theorem parseFeedInput_of_synthetic {D : List UInt8} (hsynth : Synthetic D) (p : Platform)
    (c : Ctx) :
    parseFeedInput p (some c) (some D) = .ok (0, some (c.pushAll [synthEvent D])) := by
  have hne : ¬ D.length = 0 := by
    have hle := hsynth.1
    omega
  rw [parseFeedInput, if_neg hne, trySynth_eq, if_pos hsynth]
  rfl

/-- A buffer that is one message, read from the front. -/
theorem parseFeedInput_of_item {p : Platform} {D : List UInt8} (hitem : msgFraming.Item D)
    (hfull : 20 ≤ D.length) (hlen : D.length < 0x31313238) (c : Ctx) :
    parseFeedInput p (some c) (some D) = .ok (0, some (receive c D)) := by
  have hword : (nlmsgLen D).toNat = D.length := (msgFraming_size_eq_some.1 hitem).2.2.2
  have hsynth : ¬ Synthetic D := by
    refine not_synthetic_of_word ?_
    rw [UInt32.lt_iff_toNat_lt, hword]
    exact hlen
  rw [parseFeedInput_of_not_synthetic (by omega) hsynth,
    parseNl80211Messages_of_item hitem hfull (by omega)]
  rfl

/-- A buffer that cannot start with a message: its events are those of one stream. -/
theorem parseFeedInput_of_bare {p : Platform} {D : List UInt8} (hbare : Bare D)
    (hsynth : ¬ Synthetic D) (hfit : D.length + 2 ^ 16 ≤ p.sizeMod) (c : Ctx) :
    parseFeedInput p (some c) (some D) = .ok (0, some (qpush c (bareEvent D)).1) := by
  have hne : D.length ≠ 0 := by
    have hle := hbare.1
    omega
  rw [parseFeedInput_of_not_synthetic hne hsynth, parseNl80211Messages_eq, if_pos hbare,
    parseTopAttrs_eq stationInit (At.whole D) hfit]
  rfl

/-- A buffer whose messages can all be rounded up: feeding it returns, reads nothing outside the
buffer, and queues its events in order. -/
theorem parseFeedInput_eq {D : List UInt8} (hD : D.length < 2 ^ 63)
    (hshort : ∀ f ∈ frames D, f.length ≤ maxMsg) (c : Ctx) :
    parseFeedInput .lp64 (some c) (some D) = .ok (0, some (c.pushAll (feedEvents D))) := by
  by_cases hempty : D.length = 0
  · obtain rfl : D = [] := List.length_eq_zero_iff.1 hempty
    rfl
  · by_cases hsynth : Synthetic D
    · rw [parseFeedInput_of_synthetic hsynth, feedEvents, if_pos hsynth]
    · rw [parseFeedInput_of_not_synthetic hempty hsynth, parseNl80211Messages_eq, feedEvents,
        if_neg hsynth]
      by_cases hbare : Bare D
      · have hmod : Platform.lp64.sizeMod = 2 ^ 64 := rfl
        rw [if_pos hbare, if_pos hbare, parseTopAttrs_eq stationInit (At.whole D) (by omega)]
        rfl
      · rw [if_neg hbare, if_neg hbare, messagesLoop_eq hD hshort]
        rfl

/-- If feeding a buffer returns, it has queued the events of the buffer. -/
theorem parseFeedInput_ok {D : List UInt8} (hD : D.length < 2 ^ 63) {c : Ctx}
    {r : Int × Option Ctx} (h : parseFeedInput .lp64 (some c) (some D) = .ok r) :
    r = (0, some (c.pushAll (feedEvents D))) := by
  by_cases hshort : ∀ f ∈ frames D, f.length ≤ maxMsg
  · rw [parseFeedInput_eq hD hshort] at h
    exact (Except.ok.inj h).symm
  · push Not at hshort
    rcases hshort with ⟨f, hf, hlong⟩
    have hne : ¬ D.length = 0 := by
      have hle := length_le_of_mem_frames hf
      omega
    have hframed : ¬ Bare D := by
      intro hbare
      rw [frames_of_bare hbare] at hf
      cases hf
    by_cases hsynth : Synthetic D
    · rw [parseFeedInput_of_synthetic hsynth] at h
      rw [feedEvents, if_pos hsynth]
      exact (Except.ok.inj h).symm
    · -- A message that holds the loop: the call does not return.
      rw [parseFeedInput_of_not_synthetic hne hsynth, parseNl80211Messages_eq, if_neg hframed,
        (messagesWalk hD).exec_of_long hf hlong] at h
      cases h

end Nl80211
end Netdiag
