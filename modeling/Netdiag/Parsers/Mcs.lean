import Netdiag.Lib.Run
import Netdiag.Nl80211.Streams
import Netdiag.Parsers.Calls

/-!
# Mcs — whether a station event has an MCS index

A station event says in `has_mcs` whether it has an MCS index, and an index of `0xFF` stands for an
unknown one.  The synthetic path keeps the two fields in step.  The attribute parser sets the flag
for whatever byte it reads, so the law holds of the events of a run as long as no message reports
`0xFF` (`mcs_told_iff`).
-/

namespace Netdiag

open Lib

/-! ## Calls that return events -/

namespace Parser

variable {R E C : Type} {P : Parser R E C} {c c' : QueueCtx R E} {call : Call E} {out : List E}

/-- The event that a call returns, if it returns one. -/
def Result.events : Result E → List E
  | .event r (some e) => if r = 1 then [e] else []
  | _ => []

/-- The call takes one context to the other and returns these events. -/
def Leads (P : Parser R E C) (c : QueueCtx R E) (call : Call E) (c' : QueueCtx R E)
    (out : List E) : Prop :=
  ∃ r, P.step (some c) call = .ok (some c', r) ∧ out = r.events

/-- Everything that a call can do to the queue, with the events that it returns. -/
inductive Effect (P : Parser R E C) (c : QueueCtx R E) (call : Call E) :
    QueueCtx R E → List E → Prop
  | fed {D : List UInt8} {c' : QueueCtx R E} : call = .feedInput (some D) →
      P.feedInput (some c) (some D) = .ok (0, some c') → Effect P c call c' []
  | took {e : E} {c' : QueueCtx R E} : c.queued = e :: c'.queued → Effect P c call c' [e]
  | same : Effect P c call c []
  | cleared {c' : QueueCtx R E} : c'.queued = [] → Effect P c call c' []

theorem Lawful.effect_nextEvent (e : E) {r : Result E}
    (h : P.step (some c) (.nextEvent (some e)) = .ok (some c', r)) :
    Effect P c (.nextEvent (some e)) c' r.events := by
  cases hq : c.queued with
  | nil =>
      rw [step, QueueCtx.next_of_nil hq] at h
      cases h
      exact .same
  | cons front rest =>
      rcases QueueCtx.next_of_cons hq e with ⟨c'', hnext, hrest, _⟩
      rw [step, hnext] at h
      cases h
      refine .took ?_
      rw [hq, hrest]

/-- The inversion lemma for a call that returns. -/
theorem Lawful.effect (hP : P.Lawful) (h : P.Leads c call c' out) : Effect P c call c' out := by
  rcases h with ⟨r, hstep, rfl⟩
  cases call with
  | feedInput data =>
      cases data with
      | none =>
          rw [step, hP.null _ _ (.inr rfl)] at hstep
          cases hstep
          exact .same
      | some D =>
          rcases hP.feed_cases D with ⟨es, hes⟩ | ⟨e, he⟩
          · rw [step, hes c] at hstep
            cases hstep
            exact .fed rfl (hes c)
          · rw [step, he c] at hstep
            cases hstep
  | nextEvent e =>
      cases e with
      | none =>
          cases hstep
          exact .same
      | some e => exact effect_nextEvent e hstep
  | reset =>
      rw [step, hP.reset] at hstep
      cases hstep
      exact .cleared (QueueCtx.queued_init _ _ _ _ _)

/-- What holds of the events that a buffer leaves in the queue holds of all that is returned. -/
theorem Lawful.leads_queued (hP : P.Lawful) {Good : E → Prop} (h : P.Leads c call c' out)
    (hfeed : ∀ D, call = .feedInput (some D) → P.feedInput (some c) (some D) = .ok (0, some c') →
      ∀ ev ∈ c'.queued, Good ev)
    (hqueue : ∀ ev ∈ c.queued, Good ev) :
    (∀ ev ∈ c'.queued, Good ev) ∧ ∀ ev ∈ out, Good ev := by
  have hnone : ∀ ev ∈ ([] : List E), Good ev := by
    intro ev hev
    cases hev
  cases hP.effect h with
  | fed hcall hfed => exact ⟨hfeed _ hcall hfed, hnone⟩
  | took hfront =>
      rw [hfront] at hqueue
      -- The event that is returned was in the queue before.
      refine ⟨fun ev hev => hqueue ev (List.mem_cons_of_mem _ hev), ?_⟩
      intro ev hev
      cases List.mem_singleton.1 hev
      exact hqueue _ List.mem_cons_self
  | same => exact ⟨hqueue, hnone⟩
  | cleared hempty =>
      rw [hempty]
      exact ⟨hnone, hnone⟩

end Parser

/-! ## The index of a station event -/

namespace Nl80211

open Netdiag.Parser (Call)

/-- The event has an index exactly if the index is not the one for unknown. -/
def Event.TellsMcs (ev : Event) : Prop :=
  ev.hasMcs = true ↔ ev.mcsIndex ≠ 0xFF

/-- The payload of the attribute that an event has its index from. -/
def reportedMcs (as : List Attr) : Option (List UInt8) :=
  lastMcs (nested staInfoTxBitrate (nested attrStaInfo as))

/-- If the attributes report an index, the one that counts is not `0xFF`. -/
def KnownMcs (as : List Attr) : Prop :=
  ∀ payload ∈ reportedMcs as, payload.getD 0 0 ≠ 0xFF

instance (as : List Attr) : Decidable (KnownMcs as) :=
  inferInstanceAs (Decidable (∀ payload ∈ reportedMcs as, _))

theorem tellsMcs_stationEvent_iff (as : List Attr) :
    (stationEvent as).TellsMcs ↔ KnownMcs as := by
  have hflag : (stationEvent as).hasMcs = (reportedMcs as).isSome := by
    rw [stationEvent_eq]
    rfl
  have hindex : (stationEvent as).mcsIndex = (reportedMcs as).elim 0xFF (·.getD 0 0) := by
    rw [stationEvent_eq]
    rfl
  rw [Event.TellsMcs, KnownMcs, hflag, hindex]
  -- Without a report the event is left with the index for unknown.
  cases reportedMcs as with
  | none => simp
  | some payload => simp

theorem tellsMcs_synthEvent (D : List UInt8) : (synthEvent D).TellsMcs := by
  have hflag : (synthEvent D).hasMcs = (D.getD 15 0 != 0xFF) := rfl
  rw [Event.TellsMcs, hflag, bne_iff_ne]
  exact Iff.rfl

/-- An error event keeps both fields. -/
theorem tellsMcs_bareEvent_iff (D : List UInt8) :
    (bareEvent D).TellsMcs ↔ KnownMcs (attrs D) := by
  rw [bareEvent, ← tellsMcs_stationEvent_iff]
  split_ifs
  · exact Iff.rfl
  · exact Iff.rfl

/-! ## The streams of attributes of a buffer -/

/-- The attributes of the events that a buffer makes, none if it is a synthetic frame. -/
def streams (D : List UInt8) : List (List Attr) :=
  if Synthetic D then []
  else if Bare D then [attrs D]
  else (stationFrames D).map msgAttrs

/-- The streams that find room in the queue report no index of `0xFF`. -/
def Clear (c : Ctx) : Call Event → Prop
  | .feedInput (some D) => ∀ as ∈ (streams D).take c.free, KnownMcs as
  | _ => True

theorem clear_feed_iff (c : Ctx) (D : List UInt8) :
    Clear c (.feedInput (some D)) ↔ ∀ ev ∈ (feedEvents D).take c.free, ev.TellsMcs := by
  rw [Clear, streams, feedEvents]
  by_cases hsynth : Synthetic D
  · rw [if_pos hsynth, if_pos hsynth, List.take_nil]
    refine iff_of_true ?_ ?_
    · intro as has
      cases has
    · intro ev hev
      cases List.mem_singleton.1 (List.mem_of_mem_take hev)
      exact tellsMcs_synthEvent D
  · rw [if_neg hsynth, if_neg hsynth]
    by_cases hbare : Bare D
    · rw [if_pos hbare, if_pos hbare]
      -- The one stream has one event, and both find room or neither.
      cases c.free with
      | zero => simp
      | succ n => simp [tellsMcs_bareEvent_iff]
    · rw [if_neg hbare, if_neg hbare, filter_named_eq, ← List.map_take, ← List.map_take,
        List.forall_mem_map, List.forall_mem_map]
      simp only [frameEvent, tellsMcs_stationEvent_iff]

/-! ## Runs -/

/-- A call of a 64-bit program, whose buffers are shorter than half of its memory. -/
def Step (c : Ctx) (call : Call Event) (c' : Ctx) (out : List Event) : Prop :=
  (∀ D, call = .feedInput (some D) → D.length < 2 ^ 63) ∧ (parser .lp64).Leads c call c' out

/-- The step lemma for a buffer. -/
theorem queued_feed_iff {c c' : Ctx} {D : List UInt8} (hD : D.length < 2 ^ 63)
    (hfed : parseFeedInput .lp64 (some c) (some D) = .ok (0, some c'))
    (hqueue : ∀ ev ∈ c.queued, ev.TellsMcs) :
    (∀ ev ∈ c'.queued, ev.TellsMcs) ↔ Clear c (.feedInput (some D)) := by
  cases parseFeedInput_ok hD hfed
  rw [clear_feed_iff, QueueCtx.queued_pushAll, List.forall_mem_append]
  exact and_iff_right hqueue

/-- In every run whose buffers report no index of `0xFF`, every event that is returned has an index
exactly if it is not `0xFF`; and a buffer that comes next leaves such events in the queue if and
only if it reports none either. -/
theorem mcs_told_iff (role : Role) (config : Option Config) {c : Ctx} {out : List Event}
    (hrun : Run (fun c call c' out => Step c call c' out ∧ Clear c call)
      (parseCreateWithConfig role config) c out) :
    (∀ ev ∈ out, ev.TellsMcs) ∧
    ∀ c' D, D.length < 2 ^ 63 → parseFeedInput .lp64 (some c) (some D) = .ok (0, some c') →
      ((∀ ev ∈ c'.queued, ev.TellsMcs) ↔ Clear c (.feedInput (some D))) := by
  have hempty : (parseCreateWithConfig role config).queued = [] :=
    QueueCtx.queued_init _ _ _ _ _
  have hstart : ∀ ev ∈ (parseCreateWithConfig role config).queued, ev.TellsMcs := by
    intro ev hev
    rw [hempty] at hev
    cases hev
  have hsafe : (∀ ev ∈ c.queued, ev.TellsMcs) ∧ ∀ ev ∈ out, ev.TellsMcs := by
    refine hrun.safe (I := fun c => ∀ ev ∈ c.queued, ev.TellsMcs) ?_ hstart
    intro c call c' out hqueue hstep
    apply (parser_lawful .lp64).leads_queued hstep.1.2 ?_ hqueue
    rintro D rfl hfed
    exact (queued_feed_iff (hstep.1.1 D rfl) hfed hqueue).2 hstep.2
  refine ⟨hsafe.2, ?_⟩
  -- For the next buffer the step lemma holds in both directions.
  intro c' D hD hfed
  exact queued_feed_iff hD hfed hsafe.1

/-- Feeding a buffer to an empty context and reading its first event. -/
theorem run_feed_next (meets : Ctx → Call Event → Prop) {c : Ctx} {D : List UInt8} {ev : Event}
    {rest : List Event} (hD : D.length < 2 ^ 63) (hshort : ∀ f ∈ frames D, f.length ≤ maxMsg)
    (hempty : c.queued = []) (hevents : (feedEvents D).take c.free = ev :: rest)
    (hfeed : meets c (.feedInput (some D))) (hnext : ∀ c, meets c (.nextEvent (some {}))) :
    ∃ c', Run (fun c call c' out => Step c call c' out ∧ meets c call) c c' [ev] := by
  have hqueued : (c.pushAll (feedEvents D)).queued = ev :: rest := by
    rw [QueueCtx.queued_pushAll, hempty, List.nil_append, hevents]
  rcases QueueCtx.next_of_cons hqueued {} with ⟨c', hfront, _, _⟩
  have hfirst : Step c (.feedInput (some D)) (c.pushAll (feedEvents D)) [] := by
    refine ⟨?_, .code 0, ?_, rfl⟩
    · intro D' hcall
      cases hcall
      exact hD
    · have hfed : (parser .lp64).feedInput (some c) (some D) =
          .ok (0, some (c.pushAll (feedEvents D))) := parseFeedInput_eq hD hshort c
      rw [Parser.step, hfed]
      rfl
  have hsecond : Step (c.pushAll (feedEvents D)) (.nextEvent (some {})) c' [ev] := by
    refine ⟨?_, .event 1 (some ev), ?_, rfl⟩
    · intro D' hcall
      cases hcall
    · rw [Parser.step, hfront]
      rfl
  have hstart : Run (fun c call c' out => Step c call c' out ∧ meets c call) c c [] := .refl c
  exact ⟨c', (hstart.tail ⟨hfirst, hfeed⟩).tail ⟨hsecond, hnext _⟩⟩

/-- A station whose rate has the given MCS index, as one stream of attributes. -/
def rateStream (mcs : UInt8) : List UInt8 :=
  [10, 0, 6, 0, 2, 0, 0, 0, 0, 1, 0, 0, 16, 0, 21, 0, 12, 0, 8, 0, 5, 0, 2, 0, mcs, 0, 0, 0]

theorem mcs_told_seven :
    ∃ c', Run (fun c call c' out => Step c call c' out ∧ Clear c call)
        (parseCreate .collector) c' [bareEvent (rateStream 7)] ∧
      ∀ ev ∈ [bareEvent (rateStream 7)], ev.TellsMcs := by
  have hclear : ∀ as ∈ streams (rateStream 7), KnownMcs as := by decide
  rcases run_feed_next Clear (c := parseCreate .collector) (D := rateStream 7)
    (by decide) (by decide) (QueueCtx.queued_init _ _ _ _ _) rfl
    (fun as has => hclear as (List.mem_of_mem_take has)) (fun _ => trivial) with ⟨c', hrun⟩
  exact ⟨c', hrun, (mcs_told_iff .collector none hrun).1⟩

/-- A rate with index `0xFF` is returned with `has_mcs` set. -/
theorem mcs_unknown_told :
    ¬ ∀ role config c out, Run Step (parseCreateWithConfig role config) c out →
      ∀ ev ∈ out, ev.TellsMcs := by
  intro hclaim
  rcases run_feed_next (fun _ _ => True) (c := parseCreate .collector)
    (D := rateStream 0xFF) (by decide) (by decide) (QueueCtx.queued_init _ _ _ _ _) rfl trivial
    (fun _ => trivial) with ⟨c', hrun⟩
  have hev := hclaim .collector none c' _ (hrun.mono fun _ _ _ _ hstep => hstep.1) _
    List.mem_cons_self
  have hunknown : ¬ KnownMcs (attrs (rateStream 0xFF)) := by decide
  exact hunknown ((tellsMcs_bareEvent_iff _).1 hev)

end Nl80211
end Netdiag
