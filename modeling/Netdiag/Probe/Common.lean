import Netdiag.Probe.Survey
import Netdiag.Probe.Watch

/-!
# Common — the context of no module, and resets

`src/netdiag.c` has a context of its own, with the same functions as the modules.  It looks into no
packet: whatever calls were made on it, each call gives what it gives on a new one
(`Common.observe_eq`).

A reset of the bandwidth and port probe modules leaves nothing that a caller could find out,
whatever calls were made before (`resets_are_new`).
-/

namespace Netdiag

open Lib
open Probe (Role Config Event Stats Call Result)

/-! ## The context of `netdiag.c` -/

namespace Common

/-- `struct netdiag_ctx`. -/
structure Ctx extends QueueCtx Role Event where
  last : UInt64
  replies : UInt32
  timeouts : UInt32
  dups : UInt32
  sumLat : UInt32
  maxLat : UInt32
  minLat : UInt32
  countLat : UInt32

def qinit (role : Role) (r : RawRing Event maxQ) (s : Nat) : Ctx :=
  { QueueCtx.init 8 Probe.dfltProbeQsz_pos role r s with
      last := 0
      replies := 0
      timeouts := 0
      dups := 0
      sumLat := 0
      maxLat := 0
      minLat := 0xFFFFFFFF
      countLat := 0 }

def createWithConfig (role : Role) (config : Option Config) : Ctx :=
  qinit role (RawRing.calloc {}) (match config with
    | some config => config.eventQueueSize
    | none => 8)

def create (role : Role) : Ctx :=
  createWithConfig role none

def reset (ctx : Option Ctx) : Option Ctx :=
  ctx.map fun c => qinit c.role c.ring.1 c.qsz

/-- `netdiag_feed_input_with_ts`, which looks at the pointer to the data alone. -/
def feedInputWithTs (ctx : Option Ctx) (d : Option (List UInt8)) (ts : UInt64) :
    Int × Option Ctx :=
  match ctx, d with
  | some c, some _ => (0, some { c with last := if ts ≠ 0 then ts else c.last })
  | _, _ => (-1, ctx)

def feedInput (ctx : Option Ctx) (d : Option (List UInt8)) : Int × Option Ctx :=
  feedInputWithTs ctx d 0

def process (ctx : Option Ctx) (ts : UInt64) : Int × Option Ctx :=
  match ctx with
  | some c => (0, some { c with last := ts })
  | none => (-1, none)

def nextEvent (ctx : Option Ctx) (e : Option Event) : Int × Option Ctx × Option Event :=
  match ctx, e with
  | some c, some e =>
      match c.pop e with
      | (r, q, e') => (r, some { c with toQueueCtx := q }, some e')
  | _, _ => (-1, ctx, e)

def Ctx.stats (c : Ctx) : Stats where
  replies := c.replies
  timeouts := c.timeouts
  duplicates := c.dups
  lossPct :=
    if c.replies + c.timeouts ≠ 0 then (c.timeouts * 100) / (c.replies + c.timeouts) else 0
  avgLatencyMs := if c.countLat ≠ 0 then c.sumLat / c.countLat else 0
  maxLatencyMs := c.maxLat
  minLatencyMs := if c.minLat = 0xFFFFFFFF then 0 else c.minLat

def getStats (ctx : Option Ctx) (s : Option Stats) : Int × Option Stats :=
  match ctx, s with
  | some c, some _ => (0, some c.stats)
  | _, _ => (-1, s)

/-- The system of a context and its caller, in which no call fails. -/
def step (ctx : Option Ctx) : Call → Except Empty (Option Ctx × Result)
  | .feedInput d => .ok ((feedInput ctx d).2, .code (feedInput ctx d).1)
  | .feedInputWithTs d ts => .ok ((feedInputWithTs ctx d ts).2, .code (feedInputWithTs ctx d ts).1)
  | .process ts => .ok ((process ctx ts).2, .code (process ctx ts).1)
  | .nextEvent e =>
      let (r, ctx, e) := nextEvent ctx e
      .ok (ctx, .event r e)
  | .getStats s => .ok (ctx, .stats (getStats ctx s).1 (getStats ctx s).2)
  | .reset => .ok (reset ctx, .done)

/-- What a call gives, whatever calls were made before. -/
def answer : Call → Result
  | .feedInput none | .feedInputWithTs none _ => .code (-1)
  | .feedInput (some _) | .feedInputWithTs (some _) _ | .process _ => .code 0
  | .nextEvent none => .event (-1) none
  | .nextEvent (some e) => .event 0 (some e)
  | .getStats none => .stats (-1) none
  | .getStats (some _) => .stats 0 (some ⟨0, 0, 0, 0, 0, 0, 0⟩)
  | .reset => .done

/-- Nothing is queued, and nothing was counted. -/
structure Ctx.Silent (c : Ctx) : Prop where
  queued : c.queued = []
  stats : c.stats = ⟨0, 0, 0, 0, 0, 0, 0⟩

theorem silent_new (role : Role) (r : RawRing Event maxQ) (size : Nat) :
    (qinit role r size).Silent :=
  ⟨QueueCtx.queued_init _ _ _ _ _, rfl⟩

/-- The step lemma. -/
theorem Ctx.Silent.step {c : Ctx} (h : c.Silent) (call : Call) :
    ∃ c', step (some c) call = .ok (some c', answer call) ∧ c'.Silent := by
  cases call with
  | feedInput d => cases d <;> exact ⟨_, rfl, ⟨h.queued, h.stats⟩⟩
  | feedInputWithTs d ts => cases d <;> exact ⟨_, rfl, ⟨h.queued, h.stats⟩⟩
  | process ts => exact ⟨_, rfl, ⟨h.queued, h.stats⟩⟩
  | nextEvent e =>
      cases e with
      | none => exact ⟨c, rfl, h⟩
      | some e =>
          have hpop := QueueCtx.pop_of_nil h.queued e
          refine ⟨c, ?_, h⟩
          rw [Common.step, nextEvent, hpop]
          rfl
  | getStats s =>
      cases s with
      | none => exact ⟨c, rfl, h⟩
      | some s => exact ⟨c, by rw [answer, ← h.stats]; rfl, h⟩
  | reset => exact ⟨_, rfl, silent_new _ _ _⟩

theorem Ctx.Silent.observe_eq {c : Ctx} (h : c.Silent) (calls : List Call) :
    observe Common.step (some c) calls = calls.map fun call => .ok (answer call) := by
  induction calls generalizing c with
  | nil => rfl
  | cons call calls ih =>
      rcases h.step call with ⟨c', hstep, hsilent⟩
      rw [observe, hstep, List.map_cons, ← ih hsilent]

theorem silent_create (role : Role) (config : Option Config) :
    (createWithConfig role config).Silent := by
  cases config with
  | none => exact silent_new role _ 8
  | some config => exact silent_new role _ config.eventQueueSize

theorem Ctx.Silent.trace {c : Ctx} (h : c.Silent) (calls : List Call) :
    ∃ c' rs, Lib.trace Common.step (some c) calls = .ok (some c', rs) ∧ c'.Silent := by
  induction calls generalizing c with
  | nil => exact ⟨c, [], rfl, h⟩
  | cons call calls ih =>
      rcases h.step call with ⟨c', hstep, hsilent⟩
      rcases ih hsilent with ⟨last, rs, hrest, hlast⟩
      refine ⟨last, answer call :: rs, ?_, hlast⟩
      rw [Lib.trace, hstep]
      show (Lib.trace Common.step (some c') calls >>= fun y => .ok (y.1, answer call :: y.2)) = _
      rw [hrest]
      rfl

theorem silent_of_trace {role : Role} {config : Option Config} {calls : List Call} {c : Ctx}
    {rs : List Result}
    (h : trace step (some (createWithConfig role config)) calls = .ok (some c, rs)) :
    c.Silent := by
  rcases (silent_create role config).trace calls with ⟨c', rs', htrace, hsilent⟩
  rw [htrace] at h
  cases h
  exact hsilent

theorem observe_eq (role : Role) (config : Option Config) (calls : List Call) :
    observe step (some (createWithConfig role config)) calls =
      calls.map fun call => .ok (answer call) :=
  (silent_create role config).observe_eq calls

end Common

/-! ## Resets -/

namespace Bwdiag

theorem observe_reset (p : Platform) (c : Ctx) (calls : List Call) :
    observe (step p) (reset (some c)) calls =
      observe (step p) (some (createWithConfig c.role (some ⟨c.qsz⟩))) calls := by
  have hreset : Together (reset (some c)) (.new c.qsz) := ⟨_, rfl, shows_new _ _ _⟩
  have hnew : Together (some (createWithConfig c.role (some ⟨c.qsz⟩))) (.new c.qsz) :=
    ⟨_, rfl, shows_new _ _ _⟩
  calc
    observe (step p) (reset (some c)) calls = observe (Watch.step p) (.new c.qsz) calls :=
      observe_eq_of_bisim (step_together p) hreset calls
    _ = observe (step p) (some (createWithConfig c.role (some ⟨c.qsz⟩))) calls :=
      (observe_eq_of_bisim (step_together p) hnew calls).symm

end Bwdiag

namespace Nmapdiag

/-- Here `qinit` keeps the number and the time of a probe, but no number was ever set. -/
theorem observe_reset {c : Ctx} {v : Survey} (h : c.Shows v) (calls : List Call) :
    observe step (reset (some c)) calls =
      observe step (some (createWithConfig c.role (some ⟨c.qsz⟩))) calls := by
  have hshows : (qinit c.role c.ring.1 c.lastSeq c.sendTs c.qsz).Shows (.new c.role c.qsz) := by
    rw [h.lastSeq]
    exact shows_new _ _ _ _
  have hreset : Together (reset (some c)) (.new c.role c.qsz) := ⟨_, rfl, hshows⟩
  have hnew : Together (some (createWithConfig c.role (some ⟨c.qsz⟩))) (.new c.role c.qsz) :=
    ⟨_, rfl, shows_new _ _ _ _⟩
  calc
    observe step (reset (some c)) calls = observe Survey.step (.new c.role c.qsz) calls :=
      observe_eq_of_bisim step_together hreset calls
    _ = observe step (some (createWithConfig c.role (some ⟨c.qsz⟩))) calls :=
      (observe_eq_of_bisim step_together hnew calls).symm

theorem shows_of_trace {role : Role} {config : Option Config} {calls : List Call} {c : Ctx}
    {rs : List Result}
    (h : trace step (some (createWithConfig role config)) calls = .ok (some c, rs)) :
    ∃ v, c.Shows v := by
  have hnew : Together (some (createWithConfig role config))
      (.new role (config.elim 8 Config.eventQueueSize)) := by
    cases config with
    | none => exact ⟨_, rfl, shows_new _ _ _ _⟩
    | some config => exact ⟨_, rfl, shows_new _ _ _ _⟩
  rcases (trace_of_bisim step_together hnew calls).of_ok h with ⟨y, _, ⟨c', hc, hshows⟩, _⟩
  obtain rfl : c = c' := Option.some.inj hc
  exact ⟨_, hshows⟩

end Nmapdiag

/-- Whatever calls were made on it, a context of the bandwidth or port probe module cannot be told
from a new one of its role and size once it is reset; and one of `netdiag.c` cannot be told from a
new one at any time. -/
theorem resets_are_new :
    (∀ p (c : Bwdiag.Ctx) calls, observe (Bwdiag.step p) (Bwdiag.reset (some c)) calls =
      observe (Bwdiag.step p) (some (Bwdiag.createWithConfig c.role (some ⟨c.qsz⟩))) calls) ∧
    (∀ role config past (c : Nmapdiag.Ctx) rs,
      trace Nmapdiag.step (some (Nmapdiag.createWithConfig role config)) past =
        .ok (some c, rs) →
      ∀ calls, observe Nmapdiag.step (Nmapdiag.reset (some c)) calls =
        observe Nmapdiag.step (some (Nmapdiag.createWithConfig c.role (some ⟨c.qsz⟩))) calls) ∧
    ∀ role config past (c : Common.Ctx) rs,
      trace Common.step (some (Common.createWithConfig role config)) past = .ok (some c, rs) →
      ∀ calls, observe Common.step (some c) calls =
        observe Common.step (some (Common.create role)) calls := by
  refine ⟨Bwdiag.observe_reset, ?_, ?_⟩
  · intro role config past c rs hpast calls
    rcases Nmapdiag.shows_of_trace hpast with ⟨v, hshows⟩
    exact Nmapdiag.observe_reset hshows calls
  · intro role config past c rs hpast calls
    have hsilent : c.Silent := Common.silent_of_trace hpast
    rw [hsilent.observe_eq]
    exact (Common.observe_eq role none calls).symm

end Netdiag
