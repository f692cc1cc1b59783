import Netdiag.Lib.Newest
import Netdiag.Probe.Events

/-!
# Backpressure — which events a full queue loses

The decision on the event queue says that the oldest event is dropped if the queue is full.
`qpush` drops the new one.  `Module.ideal` is the queue of the decision, fed with the events that
the code generates.  A context holds what that queue holds, through any sequence of calls, exactly
if no event is generated while its queue is full of other events (`Coupling.keepsNewest_iff`).
-/

namespace Netdiag
namespace Probe

open Lib

variable {X : Type}

/-! ## The queue of the decision -/

namespace Module

variable (m : Module X)

/-- What a call does to a queue that drops the oldest. -/
def ideal (c : Ctx X) (w : Newest Event) : Call → Newest Event
  | .nextEvent (some _) => w.pop
  | .reset => .empty
  | call => w.add c.qsz (m.generated c call)

/-- The context holds the newest events, and draining it after a burst that is long enough returns
the last of the burst, in order. -/
def HoldsNewest (c : Ctx X) (w : Newest Event) : Prop :=
  c.queued = w.queue ∧ (c.qsz ≤ w.burst.length → c.toQueueCtx.Drains (w.burst.rtake c.qsz))

/-- The context holds the newest events before and after each of the calls. -/
def KeepsNewest : Ctx X → Newest Event → List Call → Prop
  | c, w, [] => HoldsNewest c w
  | c, w, call :: calls => HoldsNewest c w ∧ ∀ c' r, m.step (some c) call = .ok (some c', r) →
      KeepsNewest c' (m.ideal c w call) calls

/-- If the call makes an event, the queue has room for it, or holds only events like it. -/
def Spares (event : Ctx X → Call → Option Event) (c : Ctx X) (call : Call) : Prop :=
  ∀ e ∈ event c call, c.queued.length < c.qsz ∨ ∀ x ∈ c.queued, x = e

/-- The calls of the sequence do so, each on the context that the calls before it leave. -/
def AlwaysSpares (event : Ctx X → Call → Option Event) : Ctx X → List Call → Prop
  | _, [] => True
  | c, call :: calls => Spares event c call ∧ ∀ c' r, m.step (some c) call = .ok (some c', r) →
      AlwaysSpares event c' calls

end Module

/-! ## What a call generates -/

variable {m : Module X}

namespace Coupling

theorem alike_roomy (k : Coupling m) (c : Ctx X) : Alike k.P c c.roomy :=
  ⟨rfl, rfl, rfl, rfl, rfl, rfl, rfl, rfl, rfl, k.refl _ _ _⟩

/-- A call queues what it generates, and nothing else. -/
theorem pushes_generated (k : Coupling m) (hfew : k.bound ≤ 32) {c c' : Ctx X} {call : Call}
    {r : Result} (hplain : call.Plain) (h : m.step (some c) call = .ok (some c', r)) :
    c'.toQueueCtx = c.toQueueCtx.pushAll (m.generated c call) := by
  rcases (coupled_step (k.alike_roomy c) hplain).of_ok h with
    ⟨y, hroomy, a', b', ha, hb, _, ⟨es, hlen, hpush, hpush'⟩, _⟩
  obtain rfl : c' = a' := Option.some.inj ha
  have hgen : m.generated c call = es := by
    rcases y with ⟨p, r'⟩
    dsimp only at hb
    rw [Module.generated, hroomy, hb]
    dsimp only
    rw [hpush']
    exact queued_roomy_pushAll c (hlen.trans hfew)
  rw [hgen]
  exact hpush

/-- A call that fails generates nothing. -/
theorem generated_of_error (k : Coupling m) {c : Ctx X} {call : Call} {e : Fault}
    (hplain : call.Plain) (h : m.step (some c) call = .error e) : m.generated c call = [] := by
  have hroomy := coupled_step (k.alike_roomy c) hplain
  rw [h] at hroomy
  generalize hy : m.step (some c.roomy) call = y at hroomy
  cases hroomy with
  | error e => rw [Module.generated, hy]

end Coupling

/-! ## One call -/

theorem ideal_of_plain {c : Ctx X} {w : Newest Event} {call : Call} (h : call.Plain) :
    m.ideal c w call = w.add c.qsz (m.generated c call) := by
  rw [Module.ideal]
  · exact fun e he => h.1 e he
  · exact h.2

variable {event : Ctx X → Call → Option Event}

theorem spares_of_none {c : Ctx X} {call : Call} (h : event c call = none) :
    Module.Spares event c call := by
  intro e he
  rw [h] at he
  cases he

namespace Coupling

/-- The step lemma: what a call leaves in the queue is what the queue of the decision has then,
exactly if no event is lost. -/
theorem queued_iff_spares (k : Coupling m) (hfew : k.bound ≤ 32) (hmakes : m.Makes event)
    {c c' : Ctx X} {call : Call} {r : Result} {w : Newest Event}
    (h : m.step (some c) call = .ok (some c', r)) (hqueue : c.queued = w.queue) :
    c'.queued = (m.ideal c w call).queue ↔ Module.Spares event c call := by
  rcases call.plain_or with hplain | ⟨e, rfl⟩ | rfl
  · have hle : c.queued.length ≤ c.qsz := c.ring.length_items_le
    rw [ideal_of_plain hplain, k.pushes_generated hfew hplain h, QueueCtx.queued_pushAll,
      Newest.add, ← hqueue, QueueCtx.free, hmakes]
    cases hevent : event c call with
    | none =>
        rw [Option.toList_none, List.take_nil, List.append_nil, Newest.rtake_of_length_le hle]
        exact iff_of_true rfl (spares_of_none hevent)
    | some e =>
        -- `qpush` refuses the event of a full queue, and the other queue drops its oldest.
        have hspares : Module.Spares event c call ↔
            c.queued.length < c.qsz ∨ ∀ x ∈ c.queued, x = e := by
          rw [Module.Spares, hevent]
          simp only [Option.mem_def, Option.some.injEq, forall_eq']
        rw [hspares]
        exact Newest.append_take_eq_rtake_iff c.qsz_pos hle e
  · have hnone := hmakes.event_eq_none (generated_nextEvent c e)
    refine iff_of_true ?_ (spares_of_none hnone)
    show c'.queued = w.queue.tail
    rw [← hqueue]
    cases h
    exact QueueCtx.queued_pop c.toQueueCtx e
  · cases h
    have hnone := hmakes.event_eq_none (generated_reset c)
    exact iff_of_true (QueueCtx.queued_init _ _ _ _ _) (spares_of_none hnone)

theorem qsz_step (k : Coupling m) {c c' : Ctx X} {call : Call} {r : Result}
    (h : m.step (some c) call = .ok (some c', r)) : c'.qsz = c.qsz := by
  rcases call.plain_or with hplain | ⟨e, rfl⟩ | rfl
  · rcases k.pushes_step hplain h with ⟨es, _, hpush⟩
    rw [hpush, QueueCtx.qsz_pushAll]
  · cases h
    exact QueueCtx.qsz_pop c.toQueueCtx e
  · cases h
    exact QueueCtx.qsz_init_self 8 dfltProbeQsz_pos c.toQueueCtx c.role

theorem spares_of_error (k : Coupling m) (hmakes : m.Makes event) {c : Ctx X} {call : Call}
    {e : Fault} (h : m.step (some c) call = .error e) : Module.Spares event c call := by
  rcases call.plain_or with hplain | ⟨e, rfl⟩ | rfl
  · exact spares_of_none (hmakes.event_eq_none (k.generated_of_error hplain h))
  · cases h
  · cases h

end Coupling

theorem kept_ideal {c : Ctx X} {w : Newest Event} (h : w.Kept c.qsz) (call : Call) :
    (m.ideal c w call).Kept c.qsz := by
  rcases call.plain_or with hplain | ⟨e, rfl⟩ | rfl
  · rw [ideal_of_plain hplain]
    exact h.add _
  · exact h.pop
  · exact .empty _

/-! ## Sequences of calls -/

/-- While the queues agree, draining the context after a burst returns the last of the burst. -/
theorem holdsNewest_iff {c : Ctx X} {w : Newest Event} (hkept : w.Kept c.qsz) :
    Module.HoldsNewest c w ↔ c.queued = w.queue := by
  refine ⟨fun h => h.1, fun hqueue => ⟨hqueue, fun hlong => ?_⟩⟩
  rw [← hkept.queue_eq hlong, ← hqueue]
  exact c.toQueueCtx.drains_queued

theorem holdsNewest_of_keepsNewest {c : Ctx X} {w : Newest Event} {calls : List Call}
    (h : m.KeepsNewest c w calls) : Module.HoldsNewest c w := by
  cases calls with
  | nil => exact h
  | cons call calls => exact h.1

/-- The run lemma, by induction on the calls that are left. -/
theorem Coupling.keepsNewest_iff_of_kept (k : Coupling m) (hfew : k.bound ≤ 32)
    (hmakes : m.Makes event) {c : Ctx X} {w : Newest Event} (hkept : w.Kept c.qsz)
    (hqueue : c.queued = w.queue) (calls : List Call) :
    m.KeepsNewest c w calls ↔ m.AlwaysSpares event c calls := by
  induction calls generalizing c w with
  | nil => exact iff_of_true ((holdsNewest_iff hkept).2 hqueue) trivial
  | cons call calls ih =>
      have hhere := (holdsNewest_iff hkept).2 hqueue
      rw [Module.KeepsNewest, Module.AlwaysSpares]
      rcases hstep : m.step (some c) call with e | ⟨p, r⟩
      · -- A call that fails is the last one.
        have hspare := k.spares_of_error hmakes hstep
        exact iff_of_true ⟨hhere, fun _ _ h => by cases h⟩ ⟨hspare, fun _ _ h => by cases h⟩
      · rcases Module.step_transition hstep with ⟨c', rfl, _⟩
        have hspares := k.queued_iff_spares hfew hmakes hstep hqueue
        have hkept' : (m.ideal c w call).Kept c'.qsz := by
          rw [k.qsz_step hstep]
          exact kept_ideal hkept call
        constructor
        · rintro ⟨_, hrest⟩
          have hnext := hrest c' r rfl
          have hqueue' := (holdsNewest_of_keepsNewest hnext).1
          refine ⟨hspares.1 hqueue', ?_⟩
          rintro _ _ ⟨⟩
          exact (ih hkept' hqueue').1 hnext
        · rintro ⟨hspare, hrest⟩
          refine ⟨hhere, ?_⟩
          rintro _ _ ⟨⟩
          exact (ih hkept' (hspares.2 hspare)).2 (hrest c' r rfl)

/-- A context holds the newest events, through the calls, exactly if none is lost. -/
theorem Coupling.keepsNewest_iff (k : Coupling m) (hfew : k.bound ≤ 32) (hmakes : m.Makes event)
    (c : Ctx X) (calls : List Call) :
    m.KeepsNewest c { queue := c.queued, burst := [] } calls ↔ m.AlwaysSpares event c calls :=
  k.keepsNewest_iff_of_kept hfew hmakes (.init c.ring.length_items_le) rfl calls

end Probe

/-! ## The four modules -/

open Ping (ping)
open Arping (arping)
open Dnsdiag (dnsdiag)
open Traceroute (traceroute)

/-- Through any calls on any context, the queue holds the most recent events exactly if no event is
generated while the queue is full of others. -/
theorem newest_kept_iff (pc : Ping.Ctx) (ac : Arping.Ctx) (dc : Dnsdiag.Ctx) (tc : Traceroute.Ctx)
    (calls : List Probe.Call) :
    (ping.KeepsNewest pc { queue := pc.queued, burst := [] } calls ↔
      ping.AlwaysSpares Ping.event pc calls) ∧
    (arping.KeepsNewest ac { queue := ac.queued, burst := [] } calls ↔
      arping.AlwaysSpares Arping.event ac calls) ∧
    (dnsdiag.KeepsNewest dc { queue := dc.queued, burst := [] } calls ↔
      dnsdiag.AlwaysSpares Dnsdiag.event dc calls) ∧
    (traceroute.KeepsNewest tc { queue := tc.queued, burst := [] } calls ↔
      traceroute.AlwaysSpares Traceroute.event tc calls) :=
  ⟨Ping.coupling.keepsNewest_iff (by decide) Ping.makes_event pc calls,
    Arping.coupling.keepsNewest_iff (by decide) Arping.makes_event ac calls,
    Dnsdiag.coupling.keepsNewest_iff (by decide) Dnsdiag.makes_event dc calls,
    Traceroute.coupling.keepsNewest_iff (by decide) Traceroute.makes_event tc calls⟩

/-- An echo reply with this sequence number. -/
def Ping.echoReply (seq : UInt8) : List UInt8 := [0, 0, 0, 0, 0, 0, 0, seq]

/-- The second of two replies is lost if the queue has one place. -/
theorem newest_lost :
    ¬ ping.KeepsNewest (ping.createWithConfig .requester (some ⟨1⟩)) { queue := [], burst := [] }
      [.feedInput (some (Ping.echoReply 0)), .feedInput (some (Ping.echoReply 1))] := by
  rintro ⟨_, hfirst⟩
  rcases hfirst _ _ rfl with ⟨_, hsecond⟩
  have hqueue := (hsecond _ _ rfl).1
  revert hqueue
  decide

end Netdiag
