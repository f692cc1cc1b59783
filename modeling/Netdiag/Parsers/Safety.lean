import Netdiag.Nfct.Feed
import Netdiag.Nl80211.Feed

/-!
# Safety — reads and termination of the netlink parsers on 64-bit platforms

A buffer of less than 4 GiB is parsed without a read outside of it (`feeds_in_bounds`).  The
message loops of both parsers end exactly on the buffers whose messages can all be rounded up
(`walks_progress_iff`); a message of more than `2 ^ 32 - 4` bytes holds them forever.
-/

namespace Netdiag

open Lib

/-! ## Reads -/

/-- Both feeding functions return, whatever the bytes are: no read was out of bounds. -/
theorem feeds_in_bounds {D : List UInt8} (hlen : D.length ≤ 2 ^ 32 - 4) (c : Nfct.Ctx)
    (c' : Nl80211.Ctx) :
    (∃ r, Nfct.feedInput .lp64 (some c) (some D) = .ok r) ∧
    (∃ r, Nl80211.parseFeedInput .lp64 (some c') (some D) = .ok r) := by
  have hshort : ∀ f ∈ frames D, f.length ≤ maxMsg := by
    intro f hf
    exact (length_le_of_mem_frames hf).trans hlen
  exact ⟨⟨_, Nfct.feedInput_eq (by omega) hshort c⟩,
    ⟨_, Nl80211.parseFeedInput_eq (by omega) hshort c'⟩⟩

/-- An attribute that runs past the end of its message. -/
theorem feeds_in_bounds_overrun :
    (∃ r, Nfct.feedInput .lp64 (some (Nfct.create .collector))
      (some [24, 0, 0, 0, 0, 1, 0, 0, 0, 0, 0, 0, 0, 0, 0, 0, 2, 0, 0, 0, 255, 255, 1, 0]) =
        .ok r) ∧
    (∃ r, Nl80211.parseFeedInput .lp64 (some (Nl80211.parseCreate .collector))
      (some [24, 0, 0, 0, 0, 1, 0, 0, 0, 0, 0, 0, 0, 0, 0, 0, 2, 0, 0, 0, 255, 255, 1, 0]) =
        .ok r) :=
  feeds_in_bounds (by decide) _ _

/-! ## Termination -/

/-- A message loop ends, and every turn from which it goes on moves it past the message where it
stood. -/
def Progress {σ : Type} (D : List UInt8) (turn : Nat × σ → Except Fault (Turn (Nat × σ) σ))
    (c : σ) : Prop :=
  Loop.Terminates turn (0, c) ∧
    ∀ off c₁ off' c₂, Loop.Reaches turn (0, c) (off, c₁) →
      turn (off, c₁) = .ok (.again (off', c₂)) →
        off + (nlmsgLen (D.drop off)).toNat ≤ off'

theorem Walk64.progress_iff {σ : Type} {D : List UInt8}
    {turn : Nat × σ → Except Fault (Turn (Nat × σ) σ)} {receive : σ → List UInt8 → σ}
    (h : Walk64 D turn receive) (c : σ) :
    Progress D turn c ↔ ∀ f ∈ frames D, f.length ≤ maxMsg := by
  constructor
  · rintro ⟨hends, _⟩
    exact (h.terminates_iff c).1 hends
  · intro hshort
    refine ⟨(h.terminates_iff c).2 hshort, ?_⟩
    intro off c₁ off' c₂ hreach hturn
    exact h.advances hshort hreach hturn

/-- The loops of `parse_netlink` and `parse_nl80211_messages` make progress and end exactly if no
message of the buffer is longer than `2 ^ 32 - 4` bytes. -/
theorem walks_progress_iff {D : List UInt8} (hD : D.length < 2 ^ 63) (c : Nfct.Ctx)
    (c' : Nl80211.Ctx) :
    (Progress D (Nfct.netlinkTurn .lp64 D) c ↔ ∀ f ∈ frames D, f.length ≤ 2 ^ 32 - 4) ∧
    (Progress D (Nl80211.messagesTurn .lp64 D) c' ↔ ∀ f ∈ frames D, f.length ≤ 2 ^ 32 - 4) :=
  ⟨(Nfct.netlinkWalk hD).progress_iff c, (Nl80211.messagesWalk hD).progress_iff c'⟩

/-- A buffer of several messages, of which the first has no attributes and the second is padded. -/
theorem walks_progress_mixedMessages :
    Progress (padMsgs mixedMessages) (Nfct.netlinkTurn .lp64 (padMsgs mixedMessages))
      (Nfct.create .collector) ∧
    Progress (padMsgs mixedMessages) (Nl80211.messagesTurn .lp64 (padMsgs mixedMessages))
      (Nl80211.parseCreate .collector) := by
  have hshort : ∀ f ∈ frames (padMsgs mixedMessages), f.length ≤ 2 ^ 32 - 4 := by
    rw [frames, padded_mixedMessages.split_eq]
    decide
  have hiff := walks_progress_iff (D := padMsgs mixedMessages) (by decide) (Nfct.create .collector)
    (Nl80211.parseCreate .collector)
  exact ⟨hiff.1.2 hshort, hiff.2.2 hshort⟩

/-- A buffer that starts with the length `2 ^ 32 - 3` and is that long. -/
def longMessage : List UInt8 :=
  0xFD :: 0xFF :: 0xFF :: 0xFF :: List.replicate (2 ^ 32 - 7) 0

theorem length_longMessage : longMessage.length = 2 ^ 32 - 3 := by
  rw [longMessage, List.length_cons, List.length_cons, List.length_cons, List.length_cons,
    List.length_replicate]
  decide

theorem size_longMessage : msgFraming.size longMessage = some (2 ^ 32 - 3) := by
  have hlen := length_longMessage
  have hword : (nlmsgLen longMessage).toNat = 2 ^ 32 - 3 :=
    show (le32 0xFD 0xFF 0xFF 0xFF).toNat = 2 ^ 32 - 3 by decide
  exact msgFraming_size_eq_some.2 ⟨by omega, by omega, by omega, hword⟩

/-- `(nl_len + 3u) & ~3u` is zero for this message, and the loops stay where they are. -/
theorem longMessage_holds :
    ¬ Progress longMessage (Nfct.netlinkTurn .lp64 longMessage) (Nfct.create .collector) ∧
    ¬ Progress longMessage (Nl80211.messagesTurn .lp64 longMessage)
      (Nl80211.parseCreate .collector) := by
  have hD : longMessage.length < 2 ^ 63 := by
    rw [length_longMessage]
    decide
  have hsome : msgFraming.size (longMessage.drop 0) = some (2 ^ 32 - 3) := by
    rw [List.drop_zero]
    exact size_longMessage
  have hlong : maxMsg < 2 ^ 32 - 3 := by decide
  constructor
  · rintro ⟨hends, _⟩
    exact (Nfct.netlinkWalk hD).not_terminates_of_long hsome hlong (Loop.Reaches.refl _) hends
  · rintro ⟨hends, _⟩
    exact (Nl80211.messagesWalk hD).not_terminates_of_long hsome hlong (Loop.Reaches.refl _) hends

end Netdiag
