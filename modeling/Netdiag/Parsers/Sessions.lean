import Netdiag.Nfct.Chunks
import Netdiag.Nl80211.Streams
import Netdiag.Parsers.Calls

/-!
# Sessions — a stream of messages that is read in pieces

A caller reads bytes, feeds them to a parser, and takes events until there are none, again and
again.  Wherever the stream was cut between two of its messages, the events of the whole session
are those of the stream as one buffer, exactly if no piece makes more events than the queue holds
(`session_stream`).
-/

namespace Netdiag

open Lib

/-! ## Rounds of feeding and draining -/

namespace Parser

variable {R E C : Type}

/-- `while (next_event(ctx, &ev) == 1) …`, with the events that the calls return, up to the call
that finds the queue empty. -/
inductive Emptied : QueueCtx R E → QueueCtx R E → List E → Prop where
  | done {c c' : QueueCtx R E} {e e' : E} :
      QueueCtx.next (some c) (some e) = (0, some c', some e') → Emptied c c' []
  | took {c c₁ c' : QueueCtx R E} {e ev : E} {es : List E} :
      QueueCtx.next (some c) (some e) = (1, some c₁, some ev) → Emptied c₁ c' es →
        Emptied c c' (ev :: es)

/-- The buffers are fed one after the other, each to the queue that was emptied before. -/
inductive Session (P : Parser R E C) :
    QueueCtx R E → List (List UInt8) → QueueCtx R E → List E → Prop where
  | close (c : QueueCtx R E) : Session P c [] c []
  | round {c c₁ c₂ c' : QueueCtx R E} {D : List UInt8} {Ds : List (List UInt8)}
      {es fs : List E} :
      P.feedInput (some c) (some D) = .ok (0, some c₁) → Emptied c₁ c₂ es →
        Session P c₂ Ds c' fs → Session P c (D :: Ds) c' (es ++ fs)

theorem Emptied.spec {c c' : QueueCtx R E} {es : List E} (h : Emptied c c' es) :
    es = c.queued ∧ c'.queued = [] ∧ c'.qsz = c.qsz := by
  induction h with
  | @done c c' e e' hnext =>
      rcases QueueCtx.queued_of_next_eq_zero hnext with ⟨hempty, rfl⟩
      exact ⟨hempty.symm, hempty, rfl⟩
  | @took c c₁ c' e ev es hnext _ ih =>
      have hqueued := QueueCtx.queued_of_next_eq_one hnext
      rcases QueueCtx.next_of_cons hqueued e with ⟨c₂, hfront, _, hqsz, _⟩
      obtain rfl : c₂ = c₁ := Option.some.inj (congrArg (·.2.1) (hfront.symm.trans hnext))
      rcases ih with ⟨hes, hempty, hsize⟩
      exact ⟨by rw [hqueued, hes], hempty, hsize.trans hqsz⟩

theorem Emptied.unique {c c₁ c₂ : QueueCtx R E} {es fs : List E} (h : Emptied c c₁ es)
    (h' : Emptied c c₂ fs) : c₁ = c₂ ∧ es = fs := by
  refine ⟨?_, h.spec.1.trans h'.spec.1.symm⟩
  induction h generalizing fs with
  | done hnext =>
      rcases QueueCtx.queued_of_next_eq_zero hnext with ⟨hempty, rfl⟩
      cases h' with
      | done hnext' => exact (QueueCtx.queued_of_next_eq_zero hnext').2.symm
      | took hnext' _ =>
          rw [QueueCtx.queued_of_next_eq_one hnext'] at hempty
          cases hempty
  | @took c _ _ e _ _ hnext _ ih =>
      have hqueued := QueueCtx.queued_of_next_eq_one hnext
      cases h' with
      | done hnext' =>
          rw [(QueueCtx.queued_of_next_eq_zero hnext').1] at hqueued
          cases hqueued
      | @took _ _ _ e' _ _ hnext' hrest =>
          have hsame := QueueCtx.next_ctx_eq c e e'
          rw [hnext, hnext'] at hsame
          cases hsame
          exact ih hrest

/-- A queue can be emptied, whatever the caller's event holds at first. -/
theorem exists_emptied (e : E) (c : QueueCtx R E) : ∃ c', Emptied c c' c.queued := by
  induction hq : c.queued generalizing c with
  | nil => exact ⟨c, .done (QueueCtx.next_of_nil hq e)⟩
  | cons front rest ih =>
      rcases QueueCtx.next_of_cons hq e with ⟨c₁, hnext, hrest, _⟩
      rcases ih c₁ hrest with ⟨c', hemptied⟩
      exact ⟨c', .took hnext hemptied⟩

variable {P : Parser R E C} {out : List UInt8 → List E}

/-- The run lemma: each round gives the events of its buffer, as many as the queue holds. -/
theorem Session.spec {c c' : QueueCtx R E} {Ds : List (List UInt8)} {es : List E}
    (h : Session P c Ds c' es)
    (hfeed : ∀ D ∈ Ds, ∀ c, P.feedInput (some c) (some D) = .ok (0, some (c.pushAll (out D))))
    (hempty : c.queued = []) :
    es = Ds.flatMap (fun D => (out D).take c.qsz) ∧ c'.queued = [] := by
  induction h with
  | close c => exact ⟨rfl, hempty⟩
  | @round c c₁ c₂ c' D Ds es fs hfed hemptied _ ih =>
      obtain rfl : c.pushAll (out D) = c₁ := by
        have hsame := (hfeed D List.mem_cons_self c).symm.trans hfed
        exact Option.some.inj (congrArg Prod.snd (Except.ok.inj hsame))
      rcases hemptied.spec with ⟨hes, hleft, hqsz⟩
      rw [QueueCtx.qsz_pushAll] at hqsz
      rcases ih (fun D' hD' => hfeed D' (List.mem_cons_of_mem _ hD')) hleft with ⟨hfs, hend⟩
      -- What the queue had room for when it was empty is what is taken from it.
      have hround : es = (out D).take c.qsz := by
        rw [hes, QueueCtx.queued_pushAll, QueueCtx.free, hempty]
        rfl
      refine ⟨?_, hend⟩
      rw [List.flatMap_cons, hround, hfs, hqsz]

theorem Session.unique {c c₁ c₂ : QueueCtx R E} {Ds : List (List UInt8)} {es fs : List E}
    (h : Session P c Ds c₁ es) (h' : Session P c Ds c₂ fs) : c₁ = c₂ ∧ es = fs := by
  induction h generalizing fs with
  | close c =>
      cases h'
      exact ⟨rfl, rfl⟩
  | round hfed hemptied _ ih =>
      cases h' with
      | round hfed' hemptied' hrest =>
          cases hfed.symm.trans hfed'
          rcases hemptied.unique hemptied' with ⟨rfl, rfl⟩
          rcases ih hrest with ⟨hctx, rfl⟩
          exact ⟨hctx, rfl⟩

theorem exists_session (e : E) {Ds : List (List UInt8)}
    (hfeed : ∀ D ∈ Ds, ∀ c, P.feedInput (some c) (some D) = .ok (0, some (c.pushAll (out D))))
    (c : QueueCtx R E) : ∃ c' es, Session P c Ds c' es := by
  induction Ds generalizing c with
  | nil => exact ⟨c, [], .close c⟩
  | cons D Ds ih =>
      rcases exists_emptied e (c.pushAll (out D)) with ⟨c₂, hemptied⟩
      rcases ih (fun D' hD' => hfeed D' (List.mem_cons_of_mem _ hD')) c₂ with ⟨c', fs, hrest⟩
      exact ⟨c', _, .round (hfeed D List.mem_cons_self c) hemptied hrest⟩

/-- There is one session over the buffers and no other, and it gives the events of every buffer
exactly if there is room. -/
def Relays (P : Parser R E C) (c : QueueCtx R E) (Ds : List (List UInt8)) (whole : List E)
    (room : Prop) : Prop :=
  (∃ c' es, Session P c Ds c' es ∧
    ∀ c'' fs, Session P c Ds c'' fs → c'' = c' ∧ fs = es) ∧
  ∀ c' es, Session P c Ds c' es → c'.queued = [] ∧ (es = whole ↔ room)

end Parser

/-- Each list is cut to its first entries, and nothing is lost. -/
theorem flatMap_take_eq_iff {α β : Type} (f : α → List β) (k : Nat) (xs : List α) :
    xs.flatMap (fun x => (f x).take k) = xs.flatMap f ↔ ∀ x ∈ xs, (f x).length ≤ k := by
  have hle : ∀ ys : List α,
      (ys.flatMap fun x => (f x).take k).length ≤ (ys.flatMap f).length := by
    intro ys
    induction ys with
    | nil => exact Nat.le_refl _
    | cons y ys ih =>
        simp only [List.flatMap_cons, List.length_append, List.length_take]
        omega
  induction xs with
  | nil => simp
  | cons x xs ih =>
      rw [List.flatMap_cons, List.flatMap_cons, List.forall_mem_cons]
      constructor
      · intro heq
        -- Both parts are at most as long as what they were cut from.
        have hlen := congrArg List.length heq
        have hrest := hle xs
        simp only [List.length_append, List.length_take] at hlen
        have hfirst : (f x).length ≤ k := by omega
        rw [List.take_of_length_le hfirst] at heq
        exact ⟨hfirst, ih.1 (List.append_cancel_left heq)⟩
      · rintro ⟨hfirst, hrest⟩
        rw [List.take_of_length_le hfirst, ih.2 hrest]

theorem Parser.relays_of_feed {R E C : Type} {P : Parser R E C} (out : List UInt8 → List E)
    {c : QueueCtx R E} {Ds : List (List UInt8)} (e : E)
    (hfeed : ∀ D ∈ Ds, ∀ c, P.feedInput (some c) (some D) = .ok (0, some (c.pushAll (out D))))
    (hempty : c.queued = []) :
    P.Relays c Ds (Ds.flatMap out) (∀ D ∈ Ds, (out D).length ≤ c.qsz) := by
  rcases exists_session e hfeed c with ⟨c', es, hsession⟩
  refine ⟨⟨c', es, hsession, fun _ _ hother => hother.unique hsession⟩, ?_⟩
  intro c' es hsession
  rcases hsession.spec hfeed hempty with ⟨rfl, hleft⟩
  exact ⟨hleft, flatMap_take_eq_iff out c.qsz Ds⟩

/-! ## Streams of complete messages -/

/-- The pieces of a stream: each is a number of complete messages with their padding, and shorter
than `bound`, so that no length in it is taken for a magic word. -/
def Pieces (bound : Nat) (mss : List (List (List UInt8))) (Ds : List (List UInt8)) : Prop :=
  List.Forall₂ msgFraming.Padded mss Ds ∧ ∀ D ∈ Ds, D.length < bound

theorem Pieces.padded {bound : Nat} {mss : List (List (List UInt8))} {Ds : List (List UInt8)}
    (h : Pieces bound mss Ds) : ∀ D ∈ Ds, ∃ ms, msgFraming.Padded ms D := by
  have hall := h.1
  clear h
  induction hall with
  | nil => exact fun D hD => absurd hD List.not_mem_nil
  | cons hD _ ih =>
      intro D' hD'
      rcases List.mem_cons.1 hD' with rfl | hD'
      · exact ⟨_, hD⟩
      · exact ih D' hD'

/-- The messages of the stream are those of its pieces. -/
theorem fullFrames_flatten {mss : List (List (List UInt8))} {Ds : List (List UInt8)}
    (h : List.Forall₂ msgFraming.Padded mss Ds) :
    fullFrames Ds.flatten = Ds.flatMap fullFrames := by
  induction h with
  | nil => rfl
  | @cons ms D mss Ds hD _ ih =>
      rw [List.flatten_cons, List.flatMap_cons, ← ih, fullFrames, frames,
        Framing.split_append_of_padded hD, List.filter_append, ← hD.split_eq]
      rfl

namespace Nfct

theorem feedInput_of_padded {ms : List (List UInt8)} {D : List UInt8}
    (hD : msgFraming.Padded ms D) (hlen : D.length < 0x5443464E) (c : Ctx) :
    feedInput .lp64 (some c) (some D) =
      .ok (0, some (c.pushAll ((fullFrames D).map frameEvent))) := by
  have hshort : ∀ f ∈ frames D, f.length ≤ maxMsg := by
    intro f hf
    have hle := length_le_of_mem_frames hf
    rw [maxMsg]
    omega
  -- The magic of a synthetic frame, read as a length, is longer than the buffer.
  have hsynth : ¬ Synthetic D := by
    cases ms with
    | nil =>
        cases hD
        exact fun h => absurd h.1 (by decide)
    | cons m ms =>
        have hnot := not_synthetic_of_padded (by simp) hD hlen []
        rwa [List.append_nil] at hnot
  rw [feedInput_eq (by omega) hshort, feedEvents, if_neg hsynth]

end Nfct

namespace Nl80211

/-- Where messages are expected, complete messages are not taken for anything else. -/
theorem parseFeedInput_of_padded {ms : List (List UInt8)} {D : List UInt8}
    (hD : msgFraming.Padded ms D) (hlen : D.length < 0x31313238) (c : Ctx) :
    parseFeedInput .lp64 (some c) (some D) =
      .ok (0, some (c.pushAll ((stationFrames D).map frameEvent))) := by
  have hshort : ∀ f ∈ frames D, f.length ≤ maxMsg := by
    intro f hf
    have hle := length_le_of_mem_frames hf
    rw [maxMsg]
    omega
  -- The first message is complete: its length is not the magic, and it is no stream of attributes.
  have hother : ¬ Synthetic D ∧ ¬ Bare D := by
    cases ms with
    | nil =>
        cases hD
        exact ⟨fun h => absurd h.1 (by decide), fun h => absurd h.1 (by decide)⟩
    | cons m ms =>
        rcases Nfct.size_of_padded hD [] with ⟨hsize, hle⟩
        rw [List.append_nil] at hsize
        have hword : (nlmsgLen D).toNat = m.length := (msgFraming_size_eq_some.1 hsize).2.2.2
        constructor
        · refine not_synthetic_of_word ?_
          rw [UInt32.lt_iff_toNat_lt, hword]
          exact Nat.lt_of_le_of_lt hle hlen
        · intro hbare
          -- Bare attributes hold no message, but the first one is there.
          have hnone := frames_of_bare hbare
          rw [frames, Framing.split_of_some hsize] at hnone
          cases hnone
  rw [parseFeedInput_eq (by omega) hshort, feedEvents, if_neg hother.1, if_neg hother.2,
    filter_named_eq]

theorem stationFrames_flatten {mss : List (List (List UInt8))} {Ds : List (List UInt8)}
    (h : List.Forall₂ msgFraming.Padded mss Ds) :
    stationFrames Ds.flatten = Ds.flatMap stationFrames := by
  rw [stationFrames, fullFrames_flatten h, List.filter_flatMap]
  rfl

end Nl80211

/-- Whatever its pieces, a session gives the events of the stream exactly if no piece makes more of
them than the queue holds. -/
theorem session_stream :
    (∀ (c : Nfct.Ctx) mss Ds, c.queued = [] → Pieces 0x5443464E mss Ds →
      (Nfct.parser .lp64).Relays c Ds ((fullFrames Ds.flatten).map Nfct.frameEvent)
        (∀ D ∈ Ds, (fullFrames D).length ≤ c.qsz)) ∧
    (∀ (c : Nl80211.Ctx) mss Ds, c.queued = [] → Pieces 0x31313238 mss Ds →
      (Nl80211.parser .lp64).Relays c Ds
        ((Nl80211.stationFrames Ds.flatten).map Nl80211.frameEvent)
        (∀ D ∈ Ds, (Nl80211.stationFrames D).length ≤ c.qsz)) := by
  constructor
  · intro c mss Ds hempty hpieces
    have hrelays := Parser.relays_of_feed (P := Nfct.parser .lp64)
      (fun D => (fullFrames D).map Nfct.frameEvent) {} (fun D hD c => by
        rcases hpieces.padded D hD with ⟨ms, hms⟩
        exact Nfct.feedInput_of_padded hms (hpieces.2 D hD) c) hempty
    simp only [List.length_map, ← List.map_flatMap] at hrelays
    rwa [fullFrames_flatten hpieces.1]
  · intro c mss Ds hempty hpieces
    have hrelays := Parser.relays_of_feed (P := Nl80211.parser .lp64)
      (fun D => (Nl80211.stationFrames D).map Nl80211.frameEvent) {} (fun D hD c => by
        rcases hpieces.padded D hD with ⟨ms, hms⟩
        exact Nl80211.parseFeedInput_of_padded hms (hpieces.2 D hD) c) hempty
    simp only [List.length_map, ← List.map_flatMap] at hrelays
    rwa [Nl80211.stationFrames_flatten hpieces.1]

/-- Two pieces of three messages each, one of which names a station. -/
def mixedPieces : List (List UInt8) :=
  [padMsgs mixedMessages, padMsgs mixedMessages.reverse]

theorem session_stream_mixedPieces :
    (Nfct.parser .lp64).Relays (Nfct.create .collector) mixedPieces
        ((fullFrames mixedPieces.flatten).map Nfct.frameEvent)
        (∀ D ∈ mixedPieces, (fullFrames D).length ≤ (Nfct.create .collector).qsz) ∧
    (Nl80211.parser .lp64).Relays (Nl80211.parseCreate .collector) mixedPieces
        ((Nl80211.stationFrames mixedPieces.flatten).map Nl80211.frameEvent)
        (∀ D ∈ mixedPieces,
          (Nl80211.stationFrames D).length ≤ (Nl80211.parseCreate .collector).qsz) := by
  have hpadded : List.Forall₂ msgFraming.Padded [mixedMessages, mixedMessages.reverse]
      mixedPieces :=
    .cons padded_mixedMessages (.cons (padded_padMsgs (by decide)) .nil)
  exact ⟨session_stream.1 _ _ _ (Nfct.queued_createWithConfig _ _)
      ⟨hpadded, by decide +kernel⟩,
    session_stream.2 _ _ _ (QueueCtx.queued_init _ _ _ _ _) ⟨hpadded, by decide +kernel⟩⟩

end Netdiag
