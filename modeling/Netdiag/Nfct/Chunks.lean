import Netdiag.Nfct.Feed

/-!
# Chunks — conntrack input in pieces

A buffer of messages may reach the parser in one call or in several, or cut short.

- Complete messages can be fed ahead of whatever follows them: the context ends in the same state
  as if all had come in one call (`feedInput_append`).
- A buffer that is cut off at any byte gives the first of the events that the whole buffer gives,
  and none that the whole buffer does not give (`feedInput_take`).
-/

namespace Netdiag
namespace Nfct

open Lib

/-! ## Messages ahead of other input -/

theorem size_of_padded {m : List UInt8} {ms : List (List UInt8)} {A : List UInt8}
    (h : msgFraming.Padded (m :: ms) A) (B : List UInt8) :
    msgFraming.size (A ++ B) = some m.length ∧ m.length ≤ A.length := by
  cases h with
  | @cons _ gap rest _ hm hgap _ =>
      refine ⟨?_, ?_⟩
      · rw [List.append_assoc]
        exact hm.size_append _
      · rw [List.length_append]
        exact Nat.le_add_right _ _

/-- A buffer that starts with a message is not taken for a synthetic frame. -/
theorem not_synthetic_of_padded {ms : List (List UInt8)} {A : List UInt8} (hne : ms ≠ [])
    (h : msgFraming.Padded ms A) (hlen : A.length < 0x5443464E) (B : List UInt8) :
    ¬ Synthetic (A ++ B) := by
  cases ms with
  | nil => exact absurd rfl hne
  | cons m ms =>
      rcases size_of_padded h B with ⟨hsize, hle⟩
      exact not_synthetic_of_size hsize (Nat.lt_of_le_of_lt hle hlen)

theorem feedEvents_append {ms : List (List UInt8)} {A B : List UInt8} (hne : ms ≠ [])
    (hA : msgFraming.Padded ms A) (hlen : A.length < 0x5443464E) (hB : ¬ Synthetic B) :
    feedEvents (A ++ B) = feedEvents A ++ feedEvents B := by
  -- The length of the first message stands where the magic word would, in `A ++ B` and in `A`.
  have hwhole := not_synthetic_of_padded hne hA hlen B
  have hfirst := not_synthetic_of_padded hne hA hlen []
  rw [List.append_nil] at hfirst
  have hframes : frames (A ++ B) = frames A ++ frames B := by
    rw [frames, Framing.split_append_of_padded hA, frames, hA.split_eq, frames]
  rw [feedEvents, if_neg hwhole, feedEvents, if_neg hfirst, feedEvents, if_neg hB, fullFrames,
    hframes, List.filter_append, List.map_append, fullFrames, fullFrames]

/-- Feeding complete messages and whatever follows them in one call leaves the context in the same
state as feeding the messages first. -/
theorem feedInput_append {ms : List (List UInt8)} {A B : List UInt8} (hne : ms ≠ [])
    (hA : msgFraming.Padded ms A) (hB : be32At B 0 ≠ synthMagic)
    (hlen : A.length + B.length < 0x5443464E) (c : Ctx) :
    ∃ c₁ c₂, feedInput .lp64 (some c) (some A) = .ok (0, some c₁) ∧
      feedInput .lp64 (some c₁) (some B) = .ok (0, some c₂) ∧
      feedInput .lp64 (some c) (some (A ++ B)) = .ok (0, some c₂) := by
  have hshort : ∀ D : List UInt8, D.length < 0x5443464E → ∀ f ∈ frames D, f.length ≤ maxMsg := by
    intro D hD f hf
    have hle := length_le_of_mem_frames hf
    rw [maxMsg]
    omega
  have hsynth : ¬ Synthetic B := fun h => hB h.2
  have hwhole : (A ++ B).length < 0x5443464E := by rwa [List.length_append]
  refine ⟨c.pushAll (feedEvents A), (c.pushAll (feedEvents A)).pushAll (feedEvents B), ?_, ?_, ?_⟩
  · exact feedInput_eq (by omega) (hshort A (by omega)) c
  · exact feedInput_eq (by omega) (hshort B (by omega)) _
  · rw [feedInput_eq (by omega) (hshort _ hwhole), feedEvents_append hne hA (by omega) hsynth,
      QueueCtx.pushAll_append]

/-- Three messages, and after them the first bytes of the second one again. -/
theorem feedInput_append_mixedMessages :
    ∃ c₁ c₂,
      feedInput .lp64 (some (create .collector)) (some (padMsgs mixedMessages)) =
        .ok (0, some c₁) ∧
      feedInput .lp64 (some c₁) (some (((padMsgs mixedMessages).drop 16).take 24)) =
        .ok (0, some c₂) ∧
      feedInput .lp64 (some (create .collector))
        (some (padMsgs mixedMessages ++ ((padMsgs mixedMessages).drop 16).take 24)) =
          .ok (0, some c₂) :=
  feedInput_append (by decide) padded_mixedMessages (by decide) (by decide) (create .collector)

/-! ## Input that is cut off -/

theorem synthetic_take_iff {D : List UInt8} {n : Nat} (hn : 32 ≤ n) :
    Synthetic (D.take n) ↔ Synthetic D := by
  rw [Synthetic, Synthetic, be32At_take (by omega), List.length_take]
  exact and_congr_left fun _ => by omega

theorem synthEvent_take {D : List UInt8} {n : Nat} (hn : 32 ≤ n) :
    synthEvent (D.take n) = synthEvent D := by
  simp only [synthEvent, getD_take_of_lt (show 4 < n by omega),
    getD_take_of_lt (show 5 < n by omega), be32At_take (show 8 + 4 ≤ n by omega),
    be16At_take (show 12 + 2 ≤ n by omega), be32At_take (show 14 + 4 ≤ n by omega),
    be16At_take (show 18 + 2 ≤ n by omega), be32At_take (show 20 + 4 ≤ n by omega),
    be16At_take (show 24 + 2 ≤ n by omega), be32At_take (show 26 + 4 ≤ n by omega),
    be16At_take (show 30 + 2 ≤ n by omega)]

/-- A synthetic frame that is cut short holds no message: its magic word would be the length. -/
theorem frames_take_of_synthetic {D : List UInt8} (hsynth : Synthetic D) {n : Nat} (hn : n < 32) :
    frames (D.take n) = [] := by
  apply Framing.split_of_none
  cases hsome : msgFraming.size (D.take n) with
  | none => rfl
  | some k =>
      -- The message would fit into fewer than 32 bytes, and the magic word is no such length.
      rcases Framing.size_of_size_take hsome with ⟨hk, hwhole⟩
      exact absurd hsynth (not_synthetic_of_size hwhole (by omega))

/-- The events of the first bytes of a buffer are the first of its events. -/
theorem feedEvents_take_prefix (D : List UInt8) (n : Nat) :
    feedEvents (D.take n) <+: feedEvents D := by
  by_cases hsynth : Synthetic D
  · rw [feedEvents, feedEvents, if_pos hsynth]
    by_cases hn : 32 ≤ n
    · -- The cut is behind the frame: both give its event.
      simp only [if_pos ((synthetic_take_iff hn).2 hsynth), synthEvent_take hn, List.prefix_rfl]
    · -- The cut is inside the frame, which sends the bytes on the other path.
      have hcut : ¬ Synthetic (D.take n) := by
        rintro ⟨hlen, _⟩
        rw [List.length_take] at hlen
        omega
      rw [if_neg hcut, fullFrames, frames_take_of_synthetic hsynth (Nat.lt_of_not_le hn)]
      exact List.nil_prefix
  · have hcut : ¬ Synthetic (D.take n) := by
      intro h
      have hn : 32 ≤ n := h.1.trans (List.length_take_le n D)
      exact hsynth ((synthetic_take_iff hn).1 h)
    rw [feedEvents, feedEvents, if_neg hsynth, if_neg hcut]
    exact ((Framing.split_take_prefix D n).filter _).map _

/-- Feeding the first bytes of a buffer queues the first of the events that feeding all of it to an
identical context queues. -/
theorem feedInput_take {D : List UInt8} (hlen : D.length ≤ 2 ^ 32 - 4) (n : Nat) (c : Ctx) :
    ∃ c₁ c₂ es es', feedInput .lp64 (some c) (some (D.take n)) = .ok (0, some c₁) ∧
      feedInput .lp64 (some c) (some D) = .ok (0, some c₂) ∧
      c₁.queued = c.queued ++ es ∧ c₂.queued = c.queued ++ es' ∧ es <+: es' := by
  have hshort : ∀ E : List UInt8, E.length ≤ D.length → ∀ f ∈ frames E, f.length ≤ maxMsg := by
    intro E hE f hf
    exact (length_le_of_mem_frames hf).trans (hE.trans hlen)
  have hcut : (D.take n).length ≤ D.length := List.length_take_le' n D
  refine ⟨c.pushAll (feedEvents (D.take n)), c.pushAll (feedEvents D), _, _, ?_, ?_,
    QueueCtx.queued_pushAll _ _, QueueCtx.queued_pushAll _ _, ?_⟩
  · exact feedInput_eq (by omega) (hshort _ hcut) c
  · exact feedInput_eq (by omega) (hshort _ le_rfl) c
  · -- The queue takes as many of them as it has room for, and these are the first ones.
    rcases feedEvents_take_prefix D n with ⟨rest, hrest⟩
    rw [← hrest, List.take_append]
    exact List.prefix_append _ _

/-- Three messages that are cut off in the attribute of the second one. -/
theorem feedInput_take_mixedMessages :
    ∃ c₁ c₂ es es',
      feedInput .lp64 (some (create .collector)) (some ((padMsgs mixedMessages).take 40)) =
        .ok (0, some c₁) ∧
      feedInput .lp64 (some (create .collector)) (some (padMsgs mixedMessages)) =
        .ok (0, some c₂) ∧
      c₁.queued = (create .collector).queued ++ es ∧
      c₂.queued = (create .collector).queued ++ es' ∧ es <+: es' :=
  feedInput_take (by decide) 40 (create .collector)

end Nfct
end Netdiag
