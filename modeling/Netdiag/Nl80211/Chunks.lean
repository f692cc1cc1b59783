import Netdiag.Nl80211.Streams
import Netdiag.Parsers.Sessions

/-!
# Chunks — station input in pieces

A buffer of messages may reach the parser in one call or in several, or cut short.  Unlike the
conntrack parser, this one also takes a buffer for a stream of attributes, and so the places where
the input is cut matter.

- What follows complete messages can be fed in a call of its own exactly if it is not taken for
  something else there (`parseFeedInput_append`).
- A buffer that is cut off at any byte makes no station that the whole one does not make.  Where the
  first message is cut, an error comes instead, unless the message has 64 KiB or more: the rest of
  its length is then taken for the type of an attribute (`parseFeedInput_take`).
-/

namespace Netdiag
namespace Nl80211

open Lib

/-! ## Messages ahead of other input -/

/-- The events of the messages of a buffer. -/
def dumpEvents (D : List UInt8) : List Event :=
  (stationFrames D).map frameEvent

/-- The buffer is not read as a sequence of messages. -/
def Mistaken (D : List UInt8) : Prop :=
  Synthetic D ∨ Bare D

instance (D : List UInt8) : Decidable (Mistaken D) :=
  inferInstanceAs (Decidable (_ ∨ _))

theorem feedEvents_of_not_mistaken {D : List UInt8} (h : ¬ Mistaken D) :
    feedEvents D = dumpEvents D := by
  rw [Mistaken, not_or] at h
  rw [feedEvents, if_neg h.1, if_neg h.2, filter_named_eq, dumpEvents]

/-- The other readings make one event. -/
theorem feedEvents_of_mistaken {D : List UInt8} (h : Mistaken D) :
    ∃ ev, feedEvents D = [ev] := by
  rw [feedEvents]
  by_cases hsynth : Synthetic D
  · exact ⟨_, if_pos hsynth⟩
  · rw [if_neg hsynth, if_pos (h.resolve_left hsynth)]
    exact ⟨_, rfl⟩

/-- The magic word is the length of a longer message than there is. -/
theorem bare_of_magic {D : List UInt8} (hmin : 4 ≤ D.length) (hmax : D.length < 0x31313238)
    (hmagic : be32At D 0 = synthMagic) : Bare D := by
  have hbytes : be32At D 0 = be32 0x38 0x32 0x31 0x31 := hmagic
  have hword : (nlmsgLen D).toNat = 0x31313238 := by
    rw [nlmsgLen_of_be32At hbytes]
    rfl
  exact ⟨hmin, .inr (by omega)⟩

/-- No message stands at the front of what is read otherwise. -/
theorem dumpEvents_of_mistaken {D : List UInt8} (hlen : D.length < 0x31313238)
    (h : Mistaken D) : dumpEvents D = [] := by
  have hbare : Bare D := by
    rcases h with ⟨hmin, hmagic⟩ | hbare
    · exact bare_of_magic (by omega) hlen hmagic
    · exact hbare
  rw [dumpEvents, stationFrames, fullFrames, frames_of_bare hbare]
  rfl

theorem dumpEvents_append {ms : List (List UInt8)} {A : List UInt8} (hA : msgFraming.Padded ms A)
    (B : List UInt8) : dumpEvents (A ++ B) = dumpEvents A ++ dumpEvents B := by
  have hframes : frames (A ++ B) = frames A ++ frames B := by
    rw [frames, Framing.split_append_of_padded hA, frames, hA.split_eq, frames]
  rw [dumpEvents, stationFrames, fullFrames, hframes, List.filter_append, List.filter_append,
    List.map_append, dumpEvents, dumpEvents, stationFrames, stationFrames, fullFrames, fullFrames]

theorem not_mistaken_of_padded {ms : List (List UInt8)} {A : List UInt8} (hne : ms ≠ [])
    (hA : msgFraming.Padded ms A) {B : List UInt8} (hlen : (A ++ B).length < 0x31313238) :
    ¬ Mistaken (A ++ B) := by
  cases ms with
  | nil => exact absurd rfl hne
  | cons m ms =>
      rcases Nfct.size_of_padded hA B with ⟨hsize, hle⟩
      -- The first word of the buffer is the length of a message that is complete.
      have hword : (nlmsgLen (A ++ B)).toNat = m.length := (msgFraming_size_eq_some.1 hsize).2.2.2
      rintro (hsynth | hbare)
      · rw [List.length_append] at hlen
        refine not_synthetic_of_word ?_ hsynth
        rw [UInt32.lt_iff_toNat_lt, hword, show (0x31313238 : UInt32).toNat = 0x31313238 from rfl]
        omega
      · have hnone := frames_of_bare hbare
        rw [frames, Framing.split_of_some hsize] at hnone
        cases hnone

theorem feedInput_short {D : List UInt8} (hlen : D.length ≤ 2 ^ 32 - 4) (c : Ctx) :
    parseFeedInput .lp64 (some c) (some D) = .ok (0, some (c.pushAll (feedEvents D))) :=
  parseFeedInput_eq (by omega) (fun _ hf => (length_le_of_mem_frames hf).trans hlen) c

/-- Feeding complete messages and what follows them in one call queues the same events as feeding
them one after the other, exactly if what follows is read as messages too, or is too late to be
queued. -/
theorem parseFeedInput_append {ms : List (List UInt8)} {A B : List UInt8} (hne : ms ≠ [])
    (hA : msgFraming.Padded ms A) (hlen : A.length + B.length < 0x31313238) (c : Ctx) :
    ∃ c₁ c₂ c₃, parseFeedInput .lp64 (some c) (some A) = .ok (0, some c₁) ∧
      parseFeedInput .lp64 (some c₁) (some B) = .ok (0, some c₂) ∧
      parseFeedInput .lp64 (some c) (some (A ++ B)) = .ok (0, some c₃) ∧
      (c₂.queued = c₃.queued ↔ ¬ Mistaken B ∨ c₁.free = 0) := by
  have hwhole : (A ++ B).length < 0x31313238 := by rwa [List.length_append]
  have hfirst := not_mistaken_of_padded hne hA (B := []) (by rw [List.append_nil]; omega)
  rw [List.append_nil] at hfirst
  refine ⟨_, _, _, feedInput_short (by omega) c, feedInput_short (by omega) _,
    feedInput_short (by omega) c, ?_⟩
  rw [feedEvents_of_not_mistaken (not_mistaken_of_padded hne hA hwhole), dumpEvents_append hA,
    feedEvents_of_not_mistaken hfirst, QueueCtx.pushAll_append, QueueCtx.queued_pushAll,
    QueueCtx.queued_pushAll (c.pushAll (dumpEvents A)), List.append_cancel_left_eq]
  by_cases hother : Mistaken B
  · -- What is queued in a call of its own is one event, and none after the messages.
    rcases feedEvents_of_mistaken hother with ⟨ev, hev⟩
    rw [hev, dumpEvents_of_mistaken (by omega) hother, List.take_nil, List.take_eq_nil_iff]
    simp [hother]
  · rw [feedEvents_of_not_mistaken hother]
    exact iff_of_true rfl (.inl hother)

/-- A stream of attributes behind complete messages: only in a call of its own is it read as
one. -/
theorem parseFeedInput_append_mac :
    ∃ c₁ c₂ c₃,
      parseFeedInput .lp64 (some (parseCreate .collector)) (some (padMsgs mixedMessages)) =
        .ok (0, some c₁) ∧
      parseFeedInput .lp64 (some c₁) (some macStream) = .ok (0, some c₂) ∧
      parseFeedInput .lp64 (some (parseCreate .collector))
        (some (padMsgs mixedMessages ++ macStream)) = .ok (0, some c₃) ∧
      (c₂.queued = c₃.queued ↔ ¬ Mistaken macStream ∨ c₁.free = 0) :=
  parseFeedInput_append (by decide) padded_mixedMessages (by decide) (parseCreate .collector)

/-! ## Input that is cut off -/

theorem nlmsgLen_take_of_le {D : List UInt8} {n : Nat} (hn : 4 ≤ n) :
    nlmsgLen (D.take n) = nlmsgLen D :=
  le32At_take (by omega)

theorem synthetic_take_iff {D : List UInt8} {n : Nat} (hn : 20 ≤ n) :
    Synthetic (D.take n) ↔ Synthetic D := by
  rw [Synthetic, Synthetic, be32At_take (by omega), List.length_take]
  exact and_congr_left fun _ => by omega

theorem synthEvent_take {D : List UInt8} {n : Nat} (hn : 20 ≤ n) :
    synthEvent (D.take n) = synthEvent D := by
  have hmac : bytesOf 6 ((D.take n).drop 4) = bytesOf 6 (D.drop 4) := by
    ext i hi
    simp only [bytesOf, Vector.getElem_ofFn, List.getD_eq_getElem?_getD, List.getElem?_drop,
      List.getElem?_take_of_lt (show 4 + i < n by omega)]
  simp only [synthEvent, hmac, be32At_take (show 10 + 4 ≤ n by omega),
    getD_take_of_lt (show 14 < n by omega), getD_take_of_lt (show 15 < n by omega),
    be32At_take (show 16 + 4 ≤ n by omega)]

theorem attrs_take_prefix (D : List UInt8) (n : Nat) : attrs (D.take n) <+: attrs D :=
  (Framing.split_take_prefix D n).map _

/-- No attribute stands at the front of a buffer that is shorter than the first one. -/
theorem attrs_of_long {D : List UInt8} (hcut : D.length < (le16At D 0).toNat) : attrs D = [] := by
  have hnone : nlaFraming.size D = none := by
    cases hsome : nlaFraming.size D with
    | none => rfl
    | some n =>
        rcases nlaFraming_size_eq_some.1 hsome with ⟨_, _, hle, hn⟩
        omega
  rw [attrs, Framing.split_of_none hnone]
  rfl

/-- The buffer is read as messages, and the length of the first one does not fit into 16 bits. -/
def LongFirst (D : List UInt8) : Prop :=
  ¬ Mistaken D ∧ 65536 ≤ (nlmsgLen D).toNat

/-- What a buffer that is cut off may give: the first of the events of the whole one, an error, or
the event of the first attributes of a stream, as which a long message that is cut is read too. -/
def CutEvents (D : List UInt8) (es : List Event) : Prop :=
  es <+: feedEvents D ∨
    ∃ ev, es = [ev] ∧ (ev.type = .eventError ∨
      (Bare D ∨ LongFirst D) ∧ ∃ as, as <+: attrs D ∧ ev = stationEvent as)

theorem bareEvent_cases (D : List UInt8) :
    bareEvent D = stationEvent (attrs D) ∨ (bareEvent D).type = .eventError := by
  rw [bareEvent]
  by_cases hnamed : (stationEvent (attrs D)).named
  · exact .inl (if_pos hnamed)
  · exact .inr (congrArg Event.type (if_neg hnamed))

/-- What is queued where the first bytes are taken for a stream. -/
theorem cutEvents_of_bare_take {D : List UInt8} (h : Bare D ∨ LongFirst D) (n : Nat) :
    CutEvents D [bareEvent (D.take n)] := by
  rcases bareEvent_cases (D.take n) with hstation | herror
  · exact .inr ⟨_, rfl, .inr ⟨h, attrs (D.take n), attrs_take_prefix D n, hstation⟩⟩
  · exact .inr ⟨_, rfl, .inl herror⟩

theorem feedEvents_of_bare {D : List UInt8} (hsynth : ¬ Synthetic D) (hbare : Bare D) :
    feedEvents D = [bareEvent D] := by
  rw [feedEvents, if_neg hsynth, if_pos hbare]

/-- Less than four bytes hold no word. -/
theorem feedEvents_of_short {D : List UInt8} (hshort : D.length < 4) : feedEvents D = [] := by
  have hsynth : ¬ Synthetic D := fun h => by
    have hle := h.1
    omega
  have hbare : ¬ Bare D := fun h => by
    have hle := h.1
    omega
  have hframes : frames D = [] := Framing.split_of_none (msgFraming_size_eq_none.2 (by omega))
  rw [feedEvents, if_neg hsynth, if_neg hbare, fullFrames, hframes]
  rfl

theorem bare_take {D : List UInt8} {n : Nat} (hn : 4 ≤ n) (hbare : Bare D) : Bare (D.take n) := by
  rcases hbare with ⟨hmin, hword⟩
  refine ⟨?_, ?_⟩
  · rw [List.length_take]
    omega
  · rw [nlmsgLen_take_of_le hn, List.length_take]
    exact hword.imp_right fun h => by omega

theorem not_synthetic_take {D : List UInt8} (hsynth : ¬ Synthetic D) (n : Nat) :
    ¬ Synthetic (D.take n) := by
  intro h
  have hn : 20 ≤ n := h.1.trans (List.length_take_le n D)
  exact hsynth ((synthetic_take_iff hn).1 h)

theorem cutEvents_of_synthetic {D : List UInt8} (hsynth : Synthetic D) {n : Nat} (hn : 4 ≤ n) :
    CutEvents D (feedEvents (D.take n)) := by
  by_cases hframe : 20 ≤ n
  · -- The cut is behind the frame: both give its event.
    left
    simp only [feedEvents, if_pos hsynth, if_pos ((synthetic_take_iff hframe).2 hsynth),
      synthEvent_take hframe, List.prefix_rfl]
  · -- The cut is inside the frame, and no attribute with the head "8211" fits there.
    have hlength : (D.take n).length < 20 := by
      rw [List.length_take]
      omega
    have hmin : 4 ≤ (D.take n).length := by
      have hle := hsynth.1
      rw [List.length_take]
      omega
    have hmagic : be32At (D.take n) 0 = synthMagic := (be32At_take (by omega)).trans hsynth.2
    have hcut : ¬ Synthetic (D.take n) := fun h => by
      have hle := h.1
      omega
    have hfirst : (le16At (D.take n) 0).toNat = 0x3238 := by
      have hbytes : be32At (D.take n) 0 = be32 0x38 0x32 0x31 0x31 := hmagic
      rcases be32_inj hbytes with ⟨h₀, h₁, _, _⟩
      rw [le16At, h₀, h₁]
      rfl
    have hbare : Bare (D.take n) := bare_of_magic hmin (by omega) hmagic
    rw [feedEvents_of_bare hcut hbare, bareEvent, attrs_of_long (by omega)]
    exact .inr ⟨_, rfl, .inl rfl⟩

theorem cutEvents_of_bare {D : List UInt8} (hsynth : ¬ Synthetic D) (hbare : Bare D) {n : Nat}
    (hn : 4 ≤ n) : CutEvents D (feedEvents (D.take n)) := by
  -- The length in the first word stays as it is, and the first bytes have even less room for it.
  rw [feedEvents_of_bare (not_synthetic_take hsynth n) (bare_take hn hbare)]
  exact cutEvents_of_bare_take (.inl hbare) n

theorem cutEvents_of_framed {D : List UInt8} (hsynth : ¬ Synthetic D) (hframed : ¬ Bare D)
    (hmin : 4 ≤ D.length) {n : Nat} (hn : 4 ≤ n) : CutEvents D (feedEvents (D.take n)) := by
  have hcut := not_synthetic_take hsynth n
  by_cases hbare : Bare (D.take n)
  · -- The cut is inside the first message.
    have hinside : (D.take n).length < (nlmsgLen (D.take n)).toNat := by
      rcases hbare.2 with hsmall | hlarge
      · rw [nlmsgLen_take_of_le hn] at hsmall
        exact absurd ⟨hmin, .inl hsmall⟩ hframed
      · exact hlarge
    rw [feedEvents_of_bare hcut hbare]
    by_cases hword : (nlmsgLen D).toNat < 65536
    · -- Its length leaves no type for an attribute.
      have hshort : (nlmsgLen (D.take n)).toNat ≤ 65535 := by
        rw [nlmsgLen_take_of_le hn]
        omega
      rw [bareEvent, attrs_of_cut hinside hshort]
      exact .inr ⟨_, rfl, .inl rfl⟩
    · have hlong : LongFirst D := ⟨not_or.2 ⟨hsynth, hframed⟩, Nat.le_of_not_lt hword⟩
      exact cutEvents_of_bare_take (.inr hlong) n
  · left
    -- Both are read as messages, and the first bytes hold the first of these.
    rw [feedEvents, feedEvents, if_neg hcut, if_neg hbare, if_neg hsynth, if_neg hframed]
    exact (((Framing.split_take_prefix D n).filter _).map _).filter _

theorem cutEvents (D : List UInt8) (n : Nat) : CutEvents D (feedEvents (D.take n)) := by
  by_cases hshort : (D.take n).length < 4
  · rw [feedEvents_of_short hshort]
    exact .inl List.nil_prefix
  · rw [List.length_take] at hshort
    have hn : 4 ≤ n := by omega
    by_cases hsynth : Synthetic D
    · exact cutEvents_of_synthetic hsynth hn
    · by_cases hbare : Bare D
      · exact cutEvents_of_bare hsynth hbare hn
      · exact cutEvents_of_framed hsynth hbare (by omega) hn

/-- Feeding the first bytes of a buffer to a context queues the first of the events that feeding
all of it to an identical context queues; or one error; or, of a stream of attributes and of a
message of 64 KiB or more that comes first, the event of the first attributes. -/
theorem parseFeedInput_take {D : List UInt8} (hlen : D.length ≤ 2 ^ 32 - 4) (n : Nat) (c : Ctx) :
    ∃ c₁ c₂ es fs, parseFeedInput .lp64 (some c) (some (D.take n)) = .ok (0, some c₁) ∧
      parseFeedInput .lp64 (some c) (some D) = .ok (0, some c₂) ∧
      c₁.queued = c.queued ++ es ∧ c₂.queued = c.queued ++ fs ∧
      (es <+: fs ∨ ∃ ev, es = [ev] ∧ (ev.type = .eventError ∨
        (Bare D ∨ LongFirst D) ∧ ∃ as, as <+: attrs D ∧ ev = stationEvent as)) := by
  have hcut : (D.take n).length ≤ D.length := List.length_take_le' n D
  refine ⟨_, _, _, _, feedInput_short (by omega) c, feedInput_short hlen c,
    QueueCtx.queued_pushAll _ _, QueueCtx.queued_pushAll _ _, ?_⟩
  rcases cutEvents D n with ⟨rest, hrest⟩ | ⟨ev, hev, hcases⟩
  · -- The queue takes as many of them as it has room for, and these are the first ones.
    left
    rw [← hrest, List.take_append]
    exact List.prefix_append _ _
  · rw [hev]
    cases hroom : c.free with
    | zero => exact .inl List.nil_prefix
    | succ k => exact .inr ⟨ev, List.take_of_length_le (Nat.le_add_left 1 k), hcases⟩

/-- A dump that is cut off in the header of its first message. -/
theorem parseFeedInput_take_mac :
    ∃ c₁ c₂ es fs,
      parseFeedInput .lp64 (some (parseCreate .collector)) (some (macDump.take 6)) =
        .ok (0, some c₁) ∧
      parseFeedInput .lp64 (some (parseCreate .collector)) (some macDump) = .ok (0, some c₂) ∧
      c₁.queued = (parseCreate .collector).queued ++ es ∧
      c₂.queued = (parseCreate .collector).queued ++ fs ∧
      (es <+: fs ∨ ∃ ev, es = [ev] ∧ (ev.type = .eventError ∨
        (Bare macDump ∨ LongFirst macDump) ∧ ∃ as, as <+: attrs macDump ∧ ev = stationEvent as)) :=
  parseFeedInput_take (by decide) 6 (parseCreate .collector)

end Nl80211
end Netdiag
