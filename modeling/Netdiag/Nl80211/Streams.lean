import Netdiag.Netlink.Put
import Netdiag.Nl80211.Feed
import Netdiag.Nl80211.Fields

/-!
# Streams — attributes with and without headers

The parser takes a buffer for one stream of attributes if its first word cannot be the length of a
message, and for a sequence of messages otherwise.

- A stream of attributes gives the same event whether it is fed bare or behind the headers of a
  message, and a message that is cut short gives an error (`parseFeedInput_disambiguates`).
- A buffer of messages gives one event for each message that names a station, in order, and
  nothing else (`parseFeedInput_dump`).
-/

namespace Netdiag
namespace Nl80211

open Lib

/-! ## The two readings of the first four bytes -/

/-- As a word, the first four bytes are length and type of an attribute. -/
theorem toNat_nlmsgLen_eq (D : List UInt8) :
    (nlmsgLen D).toNat = (le16At D 0).toNat + 65536 * (le16At D 2).toNat := by
  simp only [nlmsgLen, le32At, le16At, le32_eq_be32, le16_eq_be16, toNat_be32, toNat_be16,
    Nat.zero_add, Nat.reduceAdd]
  omega

/-- An attribute with a type cannot be the length of a short message. -/
theorem bare_of_type {A : List UInt8} (hmin : 4 ≤ A.length) (hmax : A.length < 65536)
    (htype : le16At A 2 ≠ 0) : Bare A := by
  have hword := toNat_nlmsgLen_eq A
  have hpos : (le16At A 2).toNat ≠ 0 := fun h => htype (UInt16.toNat_inj.1 h)
  exact ⟨hmin, .inr (by omega)⟩

/-- The attribute that a cut-off length would make is longer than the buffer. -/
theorem attrs_of_cut {D : List UInt8} (hcut : D.length < (nlmsgLen D).toNat)
    (hmax : (nlmsgLen D).toNat ≤ 65535) : attrs D = [] := by
  have hword := toNat_nlmsgLen_eq D
  have hnone : nlaFraming.size D = none := by
    cases hsome : nlaFraming.size D with
    | none => rfl
    | some n =>
        -- A word below 64 KiB has no type, so it is the length that the attribute would have.
        rcases nlaFraming_size_eq_some.1 hsome with ⟨_, _, hle, hn⟩
        omega
  rw [attrs, Framing.split_of_none hnone]
  rfl

/-! ## Bare and wrapped streams -/

theorem parseFeedInput_bare (p : Platform) (c : Ctx) {A : List UInt8} (hmin : 4 ≤ A.length)
    (hmax : A.length < 65516) (htype : le16At A 2 ≠ 0) (hmagic : be32At A 0 ≠ synthMagic) :
    parseFeedInput p (some c) (some A) = .ok (0, some (qpush c (bareEvent A)).1) := by
  have hmod := p.le_sizeMod
  exact parseFeedInput_of_bare (bare_of_type hmin (by omega) htype) (fun h => hmagic h.2)
    (by omega) c

theorem parseFeedInput_wrapped (p : Platform) (c : Ctx) (h : MsgHeader) {A : List UInt8}
    (hmax : A.length < 65516) :
    parseFeedInput p (some c) (some (putMsg h A)) =
      .ok (0, some (if (stationEvent (attrs A)).named then (qpush c (stationEvent (attrs A))).1
        else c)) := by
  have hlen := length_putMsg h A
  have hevent : frameEvent (putMsg h A) = stationEvent (attrs A) := by
    rw [frameEvent, msgAttrs, drop_putMsg]
  have hreceive : receive c (putMsg h A) =
      if (stationEvent (attrs A)).named then (qpush c (stationEvent (attrs A))).1 else c := by
    have hfull : 20 ≤ (putMsg h A).length := by omega
    rw [receive, hevent]
    simp only [hfull, true_and]
  rw [parseFeedInput_of_item (item_putMsg h (by omega)) (by omega) (by omega), hreceive]

theorem parseFeedInput_cut (p : Platform) (c : Ctx) {D : List UInt8} (hmin : 4 ≤ D.length)
    (hcut : D.length < (nlmsgLen D).toNat) (hmax : (nlmsgLen D).toNat ≤ 65535) :
    parseFeedInput p (some c) (some D) =
      .ok (0, some (qpush c (errorEvent stationInit D.length)).1) := by
  have hmod := p.le_sizeMod
  -- The magic word is longer than any length that is allowed here.
  have hsynth : ¬ Synthetic D := by
    refine not_synthetic_of_word ?_
    rw [UInt32.lt_iff_toNat_lt]
    exact Nat.lt_of_le_of_lt hmax (by decide)
  have hevent : bareEvent D = errorEvent stationInit D.length := by
    rw [bareEvent, attrs_of_cut hcut hmax]
    rfl
  rw [parseFeedInput_of_bare ⟨hmin, .inr hcut⟩ hsynth (by omega), hevent]

/-- Input of less than 64 KiB is taken for what it is. A stream of attributes gives the same
station event bare and in a message; where it names no station, the bare stream gives an error and
the message nothing. A message that is cut short gives an error and no station. Each time the queue
keeps the event if it has room. -/
theorem parseFeedInput_disambiguates (p : Platform) (c : Ctx) :
    (∀ (h : MsgHeader) (A : List UInt8), 4 ≤ A.length → A.length < 65516 → le16At A 2 ≠ 0 →
      be32At A 0 ≠ synthMagic →
        ∃ c₁ c₂, parseFeedInput p (some c) (some A) = .ok (0, some c₁) ∧
          parseFeedInput p (some c) (some (putMsg h A)) = .ok (0, some c₂) ∧
          (Identified (attrs A) → ∃ ev, ev.type = .eventStation ∧
            c₁ = (qpush c ev).1 ∧ c₂ = (qpush c ev).1 ∧
            c₁.queued = c.queued ++ [ev].take c.free) ∧
          (¬ Identified (attrs A) → ∃ ev, ev.type = .eventError ∧
            c₁ = (qpush c ev).1 ∧ c₂ = c ∧ c₁.queued = c.queued ++ [ev].take c.free)) ∧
    (∀ D : List UInt8, 4 ≤ D.length → D.length < (nlmsgLen D).toNat →
      (nlmsgLen D).toNat ≤ 65535 →
        ∃ ev c', ev.type = .eventError ∧
          parseFeedInput p (some c) (some D) = .ok (0, some c') ∧
          c' = (qpush c ev).1 ∧ c'.queued = c.queued ++ [ev].take c.free) := by
  have hqueued : ∀ ev, (qpush c ev).1.queued = c.queued ++ [ev].take c.free :=
    fun ev => QueueCtx.queued_pushAll c [ev]
  constructor
  · intro h A hmin hmax htype hmagic
    refine ⟨_, _, parseFeedInput_bare p c hmin hmax htype hmagic,
      parseFeedInput_wrapped p c h hmax, ?_, ?_⟩
    · -- Both paths decide by the same two flags of the same event.
      intro hnamed
      rw [← named_stationEvent_iff] at hnamed
      have hbare : bareEvent A = stationEvent (attrs A) := if_pos hnamed
      rw [hbare]
      exact ⟨_, type_stationEvent _, rfl, if_pos hnamed, hqueued _⟩
    · intro hnamed
      rw [← named_stationEvent_iff] at hnamed
      have hbare : bareEvent A = errorEvent (stationEvent (attrs A)) A.length := if_neg hnamed
      rw [hbare]
      exact ⟨_, rfl, rfl, if_neg hnamed, hqueued _⟩
  · intro D hmin hcut hmax
    exact ⟨_, _, rfl, parseFeedInput_cut p c hmin hcut hmax, rfl, hqueued _⟩

def zeroHeader : MsgHeader where
  nlType := 0
  nlFlags := 0
  seq := 0
  pid := 0
  family := #v[0, 0, 0, 0]

/-- A MAC attribute. -/
def macStream : List UInt8 :=
  [10, 0, 6, 0, 0xaa, 0xbb, 0xcc, 0xdd, 0xee, 0xff]

/-- A stream with a MAC address, in a message, and a length with nothing behind it. -/
theorem parseFeedInput_disambiguates_mac :
    (∃ c₁ c₂, parseFeedInput .lp64 (some (parseCreate .collector)) (some macStream) =
        .ok (0, some c₁) ∧
      parseFeedInput .lp64 (some (parseCreate .collector)) (some (putMsg zeroHeader macStream)) =
        .ok (0, some c₂) ∧
      (Identified (attrs macStream) → ∃ ev, ev.type = .eventStation ∧
        c₁ = (qpush (parseCreate .collector) ev).1 ∧
          c₂ = (qpush (parseCreate .collector) ev).1 ∧
          c₁.queued = (parseCreate .collector).queued ++ [ev].take (parseCreate .collector).free) ∧
      (¬ Identified (attrs macStream) → ∃ ev, ev.type = .eventError ∧
        c₁ = (qpush (parseCreate .collector) ev).1 ∧ c₂ = parseCreate .collector ∧
          c₁.queued =
            (parseCreate .collector).queued ++ [ev].take (parseCreate .collector).free)) ∧
    ∃ ev c', ev.type = .eventError ∧
      parseFeedInput .lp64 (some (parseCreate .collector)) (some [20, 0, 0, 0]) =
        .ok (0, some c') ∧
      c' = (qpush (parseCreate .collector) ev).1 ∧
      c'.queued = (parseCreate .collector).queued ++ [ev].take (parseCreate .collector).free := by
  have hboth := parseFeedInput_disambiguates .lp64 (parseCreate .collector)
  exact ⟨hboth.1 zeroHeader macStream (by decide) (by decide) (by decide) (by decide),
    hboth.2 [20, 0, 0, 0] (by decide) (by decide) (by decide)⟩

/-! ## Dumps -/

/-- The messages that name a station, by a MAC address or by a signal. -/
def stationFrames (D : List UInt8) : List (List UInt8) :=
  (fullFrames D).filter fun f => Identified (msgAttrs f)

theorem filter_named_eq (D : List UInt8) :
    ((fullFrames D).map frameEvent).filter Event.named = (stationFrames D).map frameEvent := by
  rw [List.filter_map, stationFrames]
  congr 1
  refine List.filter_congr fun f _ => ?_
  rw [Function.comp_apply, frameEvent, Bool.eq_iff_iff, named_stationEvent_iff,
    decide_eq_true_eq]

/-- A dump of stations, of whatever bytes: `qpush` is called for each of its messages that names a
station, in order, with the station event of that message, and for nothing else; the queue keeps
the first of these events, as many as it has room for. -/
theorem parseFeedInput_dump {D : List UInt8} (hmin : 16 ≤ D.length) (hmax : D.length ≤ 2 ^ 32 - 4)
    (hsynth : ¬ Synthetic D) (hword : 16 ≤ (nlmsgLen D).toNat)
    (hfirst : (nlmsgLen D).toNat ≤ D.length) (c : Ctx) :
    ∃ c', parseFeedInput .lp64 (some c) (some D) = .ok (0, some c') ∧
      c' = (stationFrames D).foldl (fun c f => (qpush c (frameEvent f)).1) c ∧
      c'.queued = c.queued ++ ((stationFrames D).map frameEvent).take c.free ∧
      ∀ f ∈ stationFrames D, (frameEvent f).type = .eventStation := by
  have hshort : ∀ f ∈ frames D, f.length ≤ maxMsg := by
    intro f hf
    exact (length_le_of_mem_frames hf).trans hmax
  -- The first word is the length of a message that is there.
  have hframed : ¬ Bare D := by
    rintro ⟨_, hsmall | hlarge⟩
    · rw [UInt32.lt_iff_toNat_lt, show (16 : UInt32).toNat = 16 from rfl] at hsmall
      omega
    · omega
  refine ⟨c.pushAll ((stationFrames D).map frameEvent), ?_, ?_, QueueCtx.queued_pushAll _ _,
    fun f _ => type_stationEvent _⟩
  · rw [parseFeedInput_eq (by omega) hshort, feedEvents, if_neg hsynth, if_neg hframed,
      filter_named_eq]
  · rw [QueueCtx.pushAll, List.foldl_map]

/-- Two messages, of which the second names a station. -/
def macDump : List UInt8 :=
  emptyMessage ++ putMsg zeroHeader macStream

theorem parseFeedInput_dump_mac :
    ∃ c', parseFeedInput .lp64 (some (parseCreate .collector)) (some macDump) =
        .ok (0, some c') ∧
      c' = (stationFrames macDump).foldl (fun c f => (qpush c (frameEvent f)).1)
        (parseCreate .collector) ∧
      c'.queued = (parseCreate .collector).queued ++
        ((stationFrames macDump).map frameEvent).take (parseCreate .collector).free ∧
      ∀ f ∈ stationFrames macDump, (frameEvent f).type = .eventStation :=
  parseFeedInput_dump (by decide) (by decide) (by decide) (by decide) (by decide)
    (parseCreate .collector)

example : (stationFrames macDump).length = 1 := by decide

end Nl80211
end Netdiag
