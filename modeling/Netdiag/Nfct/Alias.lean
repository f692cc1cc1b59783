import Netdiag.Lib.Run
import Netdiag.Nfct.Sources

/-!
# Alias — `is_destroy` over the runs of a conntrack context

The header calls `is_destroy` an alias of the type for callers.  It is one in every run that feeds
no synthetic `DESTROY` frame, for which the flag is not set, and no deletion without an address
and without an id, whose type becomes `PARTIAL` (`run_alias`).
-/

namespace Netdiag
namespace Nfct

open Lib

/-! ## Runs -/

inductive Op where
  | feed (data : List UInt8)
  | next
  | reset

/-- One call on a context, and the event that it returns. -/
inductive Step : Ctx → Op → Ctx → List Event → Prop where
  | feed {c c' : Ctx} {D : List UInt8} : D.length < 2 ^ 63 →
      feedInput .lp64 (some c) (some D) = .ok (0, some c') → Step c (.feed D) c' []
  | next {c c' : Ctx} {e ev : Event} :
      nextEvent (some c) (some e) = (1, some c', some ev) → Step c .next c' [ev]
  | empty {c c' : Ctx} {e e' : Event} :
      nextEvent (some c) (some e) = (0, some c', some e') → Step c .next c' []
  | reset {c c' : Ctx} : reset (some c) = some c' → Step c .reset c' []

/-- What holds of every event that a step may queue holds of every event in the queue. -/
theorem Step.queued {Good : Event → Prop} {c c' : Ctx} {op : Op} {out : List Event}
    (h : Step c op c' out)
    (hfeed : ∀ D, op = .feed D → ∀ ev ∈ (feedEvents D).take c.free, Good ev)
    (hqueue : ∀ ev ∈ c.queued, Good ev) :
    (∀ ev ∈ c'.queued, Good ev) ∧ ∀ ev ∈ out, Good ev := by
  have hnone : ∀ ev ∈ ([] : List Event), Good ev := fun ev hev => absurd hev List.not_mem_nil
  cases h with
  | @feed _ D hD hfed =>
      refine ⟨?_, hnone⟩
      -- What the queue has no room for is dropped and need not be good.
      cases feedInput_ok hD hfed
      intro ev hev
      rw [QueueCtx.queued_pushAll] at hev
      rcases List.mem_append.1 hev with hev | hev
      · exact hqueue ev hev
      · exact hfeed D rfl ev hev
  | next hnext =>
      -- The event that is returned was the first in the queue.
      rw [QueueCtx.queued_of_next_eq_one hnext] at hqueue
      refine ⟨fun ev hev => hqueue ev (List.mem_cons_of_mem _ hev), ?_⟩
      intro ev hev
      cases List.mem_singleton.1 hev
      exact hqueue _ List.mem_cons_self
  | empty hnext =>
      rcases QueueCtx.queued_of_next_eq_zero hnext with ⟨_, rfl⟩
      exact ⟨hqueue, hnone⟩
  | reset hreset =>
      refine ⟨?_, hnone⟩
      cases hreset
      rw [QueueCtx.queued_init]
      exact hnone

/-! ## The alias -/

def Event.Alias (ev : Event) : Prop :=
  ev.isDestroy = true ↔ ev.type = .eventDestroy

theorem alias_frameEvent_iff (f : List UInt8) :
    (frameEvent f).Alias ↔ (Deletes f → Names f) := by
  rcases frameEvent_type f with ⟨hyes, hno⟩
  rw [Event.Alias, frameEvent_isDestroy]
  constructor
  · intro halias hdel
    by_contra hnames
    rw [hno hnames] at halias
    cases halias.1 hdel
  · intro hdelete
    by_cases hnames : Names f
    · -- The type is the one from the header, which agrees with the flag.
      rw [hyes hnames]
      rcases decoded_type f with ⟨htype, hdel⟩ | ⟨htype | htype, hdel⟩
      · simp [htype, hdel]
      · simp [htype, hdel]
      · simp [htype, hdel]
    · have hdel : ¬ Deletes f := fun hdel => hnames (hdelete hdel)
      simp [hno hnames, hdel]

theorem alias_synthEvent_iff (D : List UInt8) : (synthEvent D).Alias ↔ D.getD 4 0 ≠ 3 := by
  rw [Event.Alias, synthEvent]
  dsimp only
  generalize D.getD 4 0 = kind
  split_ifs with hnew hupdate hdestroy
  · simp [hnew]
  · simp [hupdate]
  · simp [hdestroy]
  · simp [hdestroy]

/-- The events that the operation queues in this state keep the alias: a synthetic frame is not of
kind `DESTROY`, and a message that deletes a connection names it. -/
def Telling (c : Ctx) : Op → Prop
  | .feed D =>
      if Synthetic D then 0 < c.free → D.getD 4 0 ≠ 3
      else ∀ f ∈ accepted D c, Deletes f → Names f
  | _ => True

theorem telling_feed_iff (c : Ctx) (D : List UInt8) :
    Telling c (.feed D) ↔ ∀ ev ∈ (feedEvents D).take c.free, ev.Alias := by
  rw [Telling, feedEvents]
  by_cases hsynth : Synthetic D
  · rw [if_pos hsynth, if_pos hsynth, ← alias_synthEvent_iff]
    rcases Nat.eq_zero_or_pos c.free with hfull | hroom
    · simp [hfull]
    · simp [List.take_of_length_le (show [synthEvent D].length ≤ c.free from hroom), hroom]
  · rw [if_neg hsynth, if_neg hsynth, ← List.map_take, ← accepted, List.forall_mem_map]
    exact forall₂_congr fun f _ => (alias_frameEvent_iff f).symm

/-- In every run whose steps all tell what they delete, every event that is returned has
`is_destroy` as an alias of its type. -/
theorem run_alias {role : Role} {config : Option Config} {c : Ctx} {out : List Event}
    (h : Run (fun c op c' out => Step c op c' out ∧ Telling c op)
      (createWithConfig role config) c out) :
    ∀ ev ∈ out, ev.Alias := by
  have hstart : ∀ ev ∈ (createWithConfig role config).queued, ev.Alias := by
    rw [queued_createWithConfig]
    exact fun ev hev => absurd hev List.not_mem_nil
  refine (h.safe (I := fun c => ∀ ev ∈ c.queued, ev.Alias) ?_ hstart).2
  rintro c op c' out hqueue ⟨hstep, htelling⟩
  refine hstep.queued ?_ hqueue
  rintro D rfl
  exact (telling_feed_iff c D).1 htelling

/-- Feeding a buffer to an empty context and reading its first event. -/
theorem run_feed_next (meets : Ctx → Op → Prop) {c : Ctx} {D : List UInt8} {ev : Event}
    {rest : List Event} (hD : D.length < 2 ^ 63) (hshort : ∀ f ∈ frames D, f.length ≤ maxMsg)
    (hempty : c.queued = []) (hevents : (feedEvents D).take c.free = ev :: rest)
    (hfeed : meets c (.feed D)) (hnext : ∀ c, meets c .next) :
    ∃ c', Run (fun c op c' out => Step c op c' out ∧ meets c op) c c' [ev] := by
  have hqueued : (c.pushAll (feedEvents D)).queued = ev :: rest := by
    rw [QueueCtx.queued_pushAll, hempty, List.nil_append, hevents]
  rcases QueueCtx.next_of_cons hqueued {} with ⟨c', hfront, _, _⟩
  have hstart : Run (fun c op c' out => Step c op c' out ∧ meets c op) c c [] := .refl c
  have hfirst := hstart.tail ⟨Step.feed hD (feedInput_eq hD hshort c), hfeed⟩
  exact ⟨c', hfirst.tail ⟨Step.next hfront, hnext _⟩⟩

/-- A run goes on with reading all that is queued. -/
theorem run_drain {meets : Ctx → Op → Prop} (hnext : ∀ c, meets c .next) {s c : Ctx}
    {out es : List Event}
    (h : Run (fun c op c' out => Step c op c' out ∧ meets c op) s c out) (hqueued : c.queued = es) :
    ∃ c', Run (fun c op c' out => Step c op c' out ∧ meets c op) s c' (out ++ es) := by
  induction es generalizing c out with
  | nil => exact ⟨c, by rwa [List.append_nil]⟩
  | cons ev es ih =>
      rcases QueueCtx.next_of_cons hqueued {} with ⟨c', hfront, hrest, _⟩
      rcases ih (h.tail ⟨Step.next hfront, hnext c⟩) hrest with ⟨c'', hrun⟩
      rw [List.append_assoc] at hrun
      exact ⟨c'', hrun⟩

/-- Feeding a buffer to an empty context and reading all of its events. -/
theorem run_feed_drain (meets : Ctx → Op → Prop) {c : Ctx} {D : List UInt8} {es : List Event}
    (hD : D.length < 2 ^ 63) (hshort : ∀ f ∈ frames D, f.length ≤ maxMsg)
    (hempty : c.queued = []) (hevents : (feedEvents D).take c.free = es)
    (hfeed : meets c (.feed D)) (hnext : ∀ c, meets c .next) :
    ∃ c', Run (fun c op c' out => Step c op c' out ∧ meets c op) c c' es := by
  have hqueued : (c.pushAll (feedEvents D)).queued = es := by
    rw [QueueCtx.queued_pushAll, hempty, List.nil_append, hevents]
  have hstart : Run (fun c op c' out => Step c op c' out ∧ meets c op) c c [] := .refl c
  exact run_drain hnext (hstart.tail ⟨Step.feed hD (feedInput_eq hD hshort c), hfeed⟩) hqueued

/-- Connections are opened and one is deleted by its id; all events are read. -/
theorem run_alias_trackedMessages :
    ∃ c', Run (fun c op c' out => Step c op c' out ∧ Telling c op) (create .collector) c'
        (trackedMessages.map frameEvent) ∧
      ∀ ev ∈ trackedMessages.map frameEvent, ev.Alias := by
  have hsynth : ¬ Synthetic (padMsgs trackedMessages) := by decide +kernel
  have hlen : (padMsgs trackedMessages).length < 2 ^ 63 := by decide +kernel
  have hpadded := padded_trackedMessages
  -- All that is needed of the buffer is known now.
  generalize padMsgs trackedMessages = D at hsynth hlen hpadded
  have hframes : frames D = trackedMessages := hpadded.split_eq
  have hfull : trackedMessages.filter (fun f => decide (20 ≤ f.length)) = trackedMessages := by
    decide +kernel
  have hshort : ∀ f ∈ frames D, f.length ≤ maxMsg := by
    rw [hframes]
    decide +kernel
  have hevents : (feedEvents D).take (create .collector).free =
      trackedMessages.map frameEvent := by
    rw [feedEvents, if_neg hsynth, fullFrames, hframes, hfull]
    exact List.take_of_length_le (by decide +kernel)
  have hnames : ∀ f ∈ trackedMessages, Deletes f → Names f := by decide +kernel
  have htelling : Telling (create .collector) (.feed D) := by
    rw [Telling, if_neg hsynth]
    exact fun f hf => hnames f (mem_of_mem_accepted hpadded hf)
  rcases run_feed_drain Telling hlen hshort (queued_createWithConfig .collector none) hevents
    htelling (fun _ => trivial) with ⟨c', hrun⟩
  exact ⟨c', hrun, run_alias hrun⟩

/-- A synthetic `DESTROY` frame. -/
def synthDestroy : List UInt8 :=
  [0x4E, 0x46, 0x43, 0x54, 3, 6, 0, 0, 192, 168, 1, 50, 0x30, 0x39, 8, 8, 8, 8, 0, 53,
    203, 0, 113, 9, 0xD4, 0x31, 8, 8, 8, 8, 0, 53]

/-- Its event is of type `DESTROY`, and `is_destroy` is `0`. -/
theorem synthDestroy_returned :
    ¬ ∀ (role : Role) (config : Option Config) (c : Ctx) (out : List Event),
      Run Step (createWithConfig role config) c out → ∀ ev ∈ out, ev.Alias := by
  intro halias
  rcases run_feed_next (fun _ _ => True) (D := synthDestroy) (by decide) (by decide)
    (queued_createWithConfig .collector none) rfl trivial (fun _ => trivial) with ⟨c', hrun⟩
  have hev := halias _ _ _ _ (hrun.mono fun _ _ _ _ hstep => hstep.1) _ List.mem_cons_self
  exact absurd hev (by rw [alias_synthEvent_iff]; decide)

end Nfct
end Netdiag
