import Netdiag.Netlink.Walk
import Netdiag.Nfct.Decode

/-!
# Feed — feeding a buffer to a conntrack context

What `nfct_feed_input` does to a context on a 64-bit platform, in terms of the reference decoder
of `Decode`: it queues the events of the buffer one after the other, as long as there is room.
-/

namespace Netdiag
namespace Nfct

open Lib

/-! ## The message loop -/

/-- Where no message stands, the loop of `parse_netlink` ends. -/
theorem netlinkTurn_of_none {D : List UInt8} (hD : D.length < 2 ^ 63) {off : Nat}
    (hoff : msgFraming.Offset D off) (hnone : msgFraming.size (D.drop off) = none) (c : Ctx) :
    netlinkTurn .lp64 D (off, c) = .ok (.leave c) := by
  have hle := msgOffset_le hoff
  have hround := roundUp4_le D.length
  have hmod : Platform.lp64.sizeMod = 2 ^ 64 := rfl
  rw [netlinkTurn, netlinkTurnWith, Platform.add_of_lt (by omega)]
  by_cases hguard : off + 16 ≤ D.length
  · have hhere : At D off (D.drop off) := List.prefix_rfl
    have hlen : (D.drop off).length = D.length - off := List.length_drop
    rw [if_pos hguard, hhere.rd32Le_zero (by omega), hhere.rd16Le (by omega),
      hhere.rd16Le (by omega)]
    exact if_pos (bad_header_of_none (by omega) hguard hnone)
  · exact if_neg hguard

/-- The attributes of a message lie in the buffer, and the code computes their fold. -/
theorem parseCtAttrs_msg {p : Platform} {D : List UInt8} {off n : Nat}
    (hsome : msgFraming.size (D.drop off) = some n)
    (hfit : n - 20 + 2 ^ 16 ≤ p.sizeMod) (ev : Event) :
    parseCtAttrs p D (off + 20) (n - 20) ev =
      .ok (ctEvent (msgAttrs ((D.drop off).take n)) ev) := by
  rcases at_msgBody hsome with ⟨hat, hlen⟩
  rw [← hlen] at hfit ⊢
  exact parseCtAttrs_eq ev hat hfit

theorem netlinkWalk {D : List UInt8} (hD : D.length < 2 ^ 63) :
    Walk64 D (netlinkTurn .lp64 D) receive where
  leaves := fun hoff hnone => netlinkTurn_of_none hD hoff hnone _
  receives := by
    intro off n c hsome
    have hend := Framing.add_size_le hsome
    have hmod : Platform.lp64.sizeMod = 2 ^ 64 := rfl
    have halign : (nlaAlign (nlmsgLen (D.drop off))).toNat < 2 ^ 32 := UInt32.toNat_lt _
    rw [netlinkTurn_of_some (by omega) hsome
      (fun _ ev => parseCtAttrs_msg hsome (by omega) ev) c,
      Platform.add_of_lt (by omega)]

/-- Receiving the messages in order queues the events of those that are long enough. -/
theorem foldl_receive (c : Ctx) (fs : List (List UInt8)) :
    fs.foldl receive c = c.pushAll ((fs.filter (20 ≤ ·.length)).map frameEvent) := by
  rw [QueueCtx.pushAll, List.foldl_map, List.foldl_filter]
  simp only [decide_eq_true_eq]
  rfl

theorem parseNetlink_eq {D : List UInt8} (hD : D.length < 2 ^ 63)
    (hshort : ∀ f ∈ frames D, f.length ≤ maxMsg) (c : Ctx) :
    parseNetlink .lp64 D c = .ok (c.pushAll ((fullFrames D).map frameEvent)) := by
  rw [parseNetlink, (netlinkWalk hD).exec_eq hshort, foldl_receive]
  rfl

/-! ## A buffer that is one message -/

/-- A message is received on every platform, and the loop ends after it. -/
theorem parseNetlink_of_item {p : Platform} {D : List UInt8} (hitem : msgFraming.Item D)
    (hfull : 20 ≤ D.length) (hfit : D.length + 2 ^ 16 ≤ 2 ^ 32) (c : Ctx) :
    parseNetlink p D c = .ok (qpush c (frameEvent D)).1 := by
  have hmod := p.le_sizeMod
  have hsome : msgFraming.size (D.drop 0) = some D.length := by
    rw [List.drop_zero]
    exact hitem
  have hround := le_roundUp4 D.length
  have hround' := roundUp4_le D.length
  -- The first turn receives the message, the second finds less than a header.
  have hfirst := netlinkTurn_of_some (p := p) (by omega) hsome
    (fun _ ev => parseCtAttrs_msg hsome (by omega) ev) c
  rw [nlaAlign_of_short hsome (by rw [maxMsg]; omega), Platform.add_of_lt (by omega),
    List.drop_zero, List.take_length, receive, if_pos hfull] at hfirst
  have hsecond : ∀ c, netlinkTurn p D (0 + roundUp4 D.length, c) = .ok (.leave c) := by
    intro c
    rw [netlinkTurn, netlinkTurnWith, Platform.add_of_lt (by omega), if_neg (by omega)]
    rfl
  have hrun : Loop.run (netlinkTurn p D) (D.length + 2) (0, c) =
      some (.ok (qpush c (frameEvent D)).1) := by
    rw [Loop.run_again hfirst, Loop.run_leave (hsecond _)]
  rw [parseNetlink, Loop.exec_of_run hrun]

/-- The length of the first message is read from the bytes that would hold the magic word. -/
theorem not_synthetic_of_size {D : List UInt8} {n : Nat} (hsome : msgFraming.size D = some n)
    (hn : n < 0x5443464E) : ¬ Synthetic D := by
  rintro ⟨_, hmagic⟩
  have hbytes : be32At D 0 = be32 0x4E 0x46 0x43 0x54 := hmagic
  have hword : (nlmsgLen D).toNat = n := (msgFraming_size_eq_some.1 hsome).2.2.2
  -- The magic word is "NFCT", and read as a length these bytes are `0x5443464E`.
  rw [nlmsgLen_of_be32At hbytes] at hword
  exact Nat.ne_of_lt hn hword.symm

/-! ## The synthetic path -/

theorem trySynth_eq (D : List UInt8) (c : Ctx) :
    trySynth D c =
      .ok (if Synthetic D then (c.pushAll [synthEvent D], true) else (c, false)) := by
  rw [trySynth]
  by_cases hlen : D.length < 32
  · have hno : ¬ Synthetic D := fun h => by
      have hle := h.1
      omega
    rw [if_pos hlen, if_neg hno]
    rfl
  · rw [if_neg hlen, rd32Be_of_le (by omega : 0 + 4 ≤ D.length)]
    by_cases hmagic : be32At D 0 = synthMagic
    · -- All reads of the frame are in its 32 bytes.
      have hyes : Synthetic D := ⟨by omega, hmagic⟩
      rw [rd_of_lt (by omega : 4 + 1 ≤ D.length), rd_of_lt (by omega : 5 + 1 ≤ D.length),
        rd32Be_of_le (by omega : 8 + 4 ≤ D.length), rd16Be_of_le (by omega : 12 + 2 ≤ D.length),
        rd32Be_of_le (by omega : 14 + 4 ≤ D.length), rd16Be_of_le (by omega : 18 + 2 ≤ D.length),
        rd32Be_of_le (by omega : 20 + 4 ≤ D.length), rd16Be_of_le (by omega : 24 + 2 ≤ D.length),
        rd32Be_of_le (by omega : 26 + 4 ≤ D.length), rd16Be_of_le (by omega : 30 + 2 ≤ D.length),
        if_pos hyes]
      simp only [bind, Except.bind, if_neg (not_not.2 hmagic)]
      rfl
    · have hno : ¬ Synthetic D := fun h => hmagic h.2
      rw [if_neg hno]
      simp only [bind, Except.bind, if_pos hmagic]
      rfl

/-! ## The public function -/

/-- A buffer that the synthetic path does not take goes to `parse_netlink`. -/
theorem feedInput_of_not_synthetic {D : List UInt8} (hne : D.length ≠ 0) (hsynth : ¬ Synthetic D)
    (p : Platform) (c : Ctx) :
    feedInput p (some c) (some D) = parseNetlink p D c >>= fun c => .ok (0, some c) := by
  rw [feedInput, if_neg hne, trySynth_eq, if_neg hsynth]
  rfl

/-- A synthetic frame is taken whatever messages its bytes would make. -/
theorem feedInput_of_synthetic {D : List UInt8} (hsynth : Synthetic D) (p : Platform) (c : Ctx) :
    feedInput p (some c) (some D) = .ok (0, some (c.pushAll [synthEvent D])) := by
  have hne : ¬ D.length = 0 := by
    have hle := hsynth.1
    omega
  rw [feedInput, if_neg hne, trySynth_eq, if_pos hsynth]
  rfl

/-- A buffer whose messages can all be rounded up: feeding it returns, reads nothing outside the
buffer, and queues its events in order. -/
theorem feedInput_eq {D : List UInt8} (hD : D.length < 2 ^ 63)
    (hshort : ∀ f ∈ frames D, f.length ≤ maxMsg) (c : Ctx) :
    feedInput .lp64 (some c) (some D) = .ok (0, some (c.pushAll (feedEvents D))) := by
  by_cases hempty : D.length = 0
  · obtain rfl : D = [] := List.length_eq_zero_iff.1 hempty
    rfl
  · by_cases hsynth : Synthetic D
    · rw [feedInput_of_synthetic hsynth, feedEvents, if_pos hsynth]
    · rw [feedInput_of_not_synthetic hempty hsynth, parseNetlink_eq hD hshort, feedEvents,
        if_neg hsynth]
      rfl

theorem feedInput_of_item {p : Platform} {D : List UInt8} (hitem : msgFraming.Item D)
    (hfull : 20 ≤ D.length) (hlen : D.length < 0x5443464E) (c : Ctx) :
    feedInput p (some c) (some D) = .ok (0, some (c.pushAll [frameEvent D])) := by
  rw [feedInput_of_not_synthetic (by omega) (not_synthetic_of_size hitem hlen),
    parseNetlink_of_item hitem hfull (by omega)]
  rfl

/-- A message that is too long to be rounded up keeps the call from returning. -/
theorem feedInput_of_long {D : List UInt8} (hD : D.length < 2 ^ 63) (hsynth : ¬ Synthetic D)
    {f : List UInt8} (hf : f ∈ frames D) (hlong : maxMsg < f.length) (c : Ctx) :
    feedInput .lp64 (some c) (some D) = .error .stuck := by
  have hne : ¬ D.length = 0 := by
    have hle := length_le_of_mem_frames hf
    omega
  rw [feedInput_of_not_synthetic hne hsynth, parseNetlink,
    (netlinkWalk hD).exec_of_long hf hlong]
  rfl

/-- If feeding a buffer returns, it has queued the events of the buffer. -/
theorem feedInput_ok {D : List UInt8} (hD : D.length < 2 ^ 63) {c : Ctx} {r : Int × Option Ctx}
    (h : feedInput .lp64 (some c) (some D) = .ok r) :
    r = (0, some (c.pushAll (feedEvents D))) := by
  by_cases hsynth : Synthetic D
  · rw [feedInput_of_synthetic hsynth] at h
    rw [feedEvents, if_pos hsynth]
    exact (Except.ok.inj h).symm
  · by_cases hshort : ∀ f ∈ frames D, f.length ≤ maxMsg
    · rw [feedInput_eq hD hshort] at h
      exact (Except.ok.inj h).symm
    · -- A message that holds the loop: the call does not return.
      push Not at hshort
      rcases hshort with ⟨f, hf, hlong⟩
      rw [feedInput_of_long hD hsynth hf hlong] at h
      cases h

/-- A buffer that is not a synthetic frame, of whatever bytes: `qpush` is called for each of its
messages of at least 20 bytes, in order, with the event of that message, and for nothing else; the
queue keeps the first of these events, as many as it has room for. -/
theorem feedInput_frames {D : List UInt8} (hlen : D.length ≤ 2 ^ 32 - 4) (hsynth : ¬ Synthetic D)
    (c : Ctx) :
    ∃ c', feedInput .lp64 (some c) (some D) = .ok (0, some c') ∧
      c' = (fullFrames D).foldl (fun c f => (qpush c (frameEvent f)).1) c ∧
      c'.queued = c.queued ++ ((fullFrames D).map frameEvent).take c.free := by
  have hshort : ∀ f ∈ frames D, f.length ≤ maxMsg := by
    intro f hf
    exact (length_le_of_mem_frames hf).trans hlen
  refine ⟨c.pushAll ((fullFrames D).map frameEvent), ?_, ?_, QueueCtx.queued_pushAll _ _⟩
  · rw [feedInput_eq (by omega) hshort, feedEvents, if_neg hsynth]
  · rw [QueueCtx.pushAll, List.foldl_map]

/-- Three messages, the first of which is too short for an event, and one that is cut short. -/
theorem feedInput_frames_cut :
    ∃ c', feedInput .lp64 (some (create .collector))
        (some (padMsgs mixedMessages ++ [20, 0, 0, 0])) = .ok (0, some c') ∧
      c' = (fullFrames (padMsgs mixedMessages ++ [20, 0, 0, 0])).foldl
        (fun c f => (qpush c (frameEvent f)).1) (create .collector) ∧
      c'.queued = (create .collector).queued ++
        ((fullFrames (padMsgs mixedMessages ++ [20, 0, 0, 0])).map frameEvent).take
          (create .collector).free :=
  feedInput_frames (by decide) (by decide) (create .collector)

end Nfct
end Netdiag
