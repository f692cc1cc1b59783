import Netdiag.Buffer
import Netdiag.Lib.Meter
import Netdiag.Lib.Observe
import Netdiag.Probe.Nmapdiag

/-!
# Survey — what the port probe module is for

A survey remembers the answers that its owner was given since it was created or reset.  It does
not know when a probe was sent: an answer that comes with a time counts as one after no time at
all, any other as one after five milliseconds.  No probe has a number, and none times out.  The
module keeps the time and the number of a probe, and looks for timeouts.  Still no caller can tell
it from a survey, whatever calls are made (`nmapdiag_is_survey`).
-/

namespace Netdiag
namespace Nmapdiag

open Lib
open Probe (Role Config Stats)

/-! ## The calls of the module -/

inductive Call
  | feedInput (d : Option (List UInt8))
  | feedInputWithTs (d : Option (List UInt8)) (ts : UInt64)
  | process (ts : UInt64)
  | nextEvent (e : Option Event)
  | getStats (s : Option Stats)
  | reset

/-- What a call returns, and what it leaves behind the pointers it was given. -/
inductive Result
  | code (r : Int)
  | event (r : Int) (e : Option Event)
  | stats (r : Int) (s : Option Stats)
  | done
  deriving DecidableEq

/-- The system of a context and its caller. -/
def step (ctx : Option Ctx) : Call → Except Fault (Option Ctx × Result)
  | .feedInput d => do
      let (r, ctx) ← feedInput ctx d
      return (ctx, .code r)
  | .feedInputWithTs d ts => do
      let (r, ctx) ← feedInputWithTs ctx d ts
      return (ctx, .code r)
  | .process ts => return ((process ctx ts).2, .code (process ctx ts).1)
  | .nextEvent e =>
      let (r, ctx, e) := nextEvent ctx e
      return (ctx, .event r e)
  | .getStats s => return (ctx, .stats (getStats ctx s).1 (getStats ctx s).2)
  | .reset => return (reset ctx, .done)

/-! ## Surveys -/

inductive Answer
  | port (latencyMs : UInt32)
  | unreachable
  deriving DecidableEq, Repr

def Answer.latencyMs : Answer → UInt32
  | .port latencyMs => latencyMs
  | .unreachable => 0

/-- Answers have no number. -/
def Answer.event (answer : Answer) : Event :=
  { type := .probeReply, latencyMs := answer.latencyMs }

/-- What a packet of at least 20 bytes says to the owner of a survey.  The protocol decides which
byte is looked at, whether the packet has it or not. -/
def answerOf (role : Role) (d : List UInt8) (ts : UInt64) : Except Fault (Option Answer) :=
  if d.getD 9 0 = 6 ∧ role = .requester then
    if d.length ≤ 33 then .error (.outOfBounds 33)
    else .ok (if d.getD 33 0 &&& 0x12 ≠ 0 then some (.port (if ts = 0 then 5 else 0)) else none)
  else if d.getD 9 0 = 1 then
    if d.length ≤ 20 then .error (.outOfBounds 20)
    else .ok (if (d.getD 20 0 = 3 ∨ d.getD 20 0 = 11) ∧ role = .requester then some .unreachable
      else none)
  else .ok none

/-- The answers, the last one first, and the events that nobody has taken. -/
structure Survey where
  role : Role
  answers : List Answer
  pending : Buffer Event

namespace Survey

def new (role : Role) (size : Nat) : Survey where
  role := role
  answers := []
  pending := newBuffer 8 size

def add (v : Survey) (answer : Answer) : Survey :=
  { v with answers := answer :: v.answers, pending := v.pending.push answer.event }

def feed (v : Survey) (d : Option (List UInt8)) (ts : UInt64) : Except Fault (Survey × Result) :=
  match d with
  | none => .ok (v, .code (-1))
  | some d =>
      if d.length < 20 then .ok (v, .code (-1))
      else (answerOf v.role d ts).map fun answer => (answer.elim v v.add, .code 0)

/-- The latencies of the ports that answered. -/
def latencies (v : Survey) : List UInt32 :=
  v.answers.filterMap fun
    | .port latencyMs => some latencyMs
    | .unreachable => none

/-- Every answer is a reply, and only ports have latencies. -/
def stats (v : Survey) : Stats where
  replies := UInt32.ofNat v.answers.length
  timeouts := 0
  duplicates := 0
  lossPct := 0
  avgLatencyMs :=
    if UInt32.ofNat v.latencies.length ≠ 0 then
      UInt32.ofNat (total v.latencies) / UInt32.ofNat v.latencies.length
    else 0
  maxLatencyMs := if 5 ∈ v.latencies then 5 else 0
  minLatencyMs := if 5 ∈ v.latencies ∧ 0 ∉ v.latencies then 5 else 0

def step (v : Survey) : Call → Except Fault (Survey × Result)
  | .feedInput d => v.feed d 0
  | .feedInputWithTs d ts => v.feed d ts
  | .process _ => .ok (v, .code 0)
  | .nextEvent none => .ok (v, .event (-1) none)
  | .nextEvent (some e) =>
      .ok ({ v with pending := (v.pending.pop e).2.1 },
        .event (v.pending.pop e).1 (some (v.pending.pop e).2.2))
  | .getStats none => .ok (v, .stats (-1) none)
  | .getStats (some _) => .ok (v, .stats 0 (some v.stats))
  | .reset => .ok ({ v with answers := [], pending := v.pending.clear }, .done)

end Survey

/-! ## The module is a survey -/

/-- The words of the context are those of the survey, and no probe is waiting. -/
structure Ctx.Shows (c : Ctx) (v : Survey) : Prop where
  role : c.role = v.role
  pending : c.buffer = v.pending
  lastSeq : c.lastSeq = 0
  waiting : c.waiting = false
  replies : c.replies = UInt32.ofNat v.answers.length
  timeouts : c.timeouts = 0
  dups : c.dups = 0
  sumLat : c.sumLat = UInt32.ofNat (total v.latencies)
  countLat : c.countLat = UInt32.ofNat v.latencies.length
  known : ∀ lat ∈ v.latencies, lat = 0 ∨ lat = 5
  maxLat : c.maxLat = if 5 ∈ v.latencies then 5 else 0
  minLat : c.minLat =
    if 0 ∈ v.latencies then 0 else if 5 ∈ v.latencies then 5 else 0xFFFFFFFF

theorem shows_new (role : Role) (r : RawRing Event maxQ) (sendTs : UInt64) (size : Nat) :
    (qinit role r 0 sendTs size).Shows (.new role size) where
  role := rfl
  pending := QueueCtx.buffer_init _ (by decide) _ _ _
  lastSeq := rfl
  waiting := rfl
  replies := rfl
  timeouts := rfl
  dups := rfl
  sumLat := rfl
  countLat := rfl
  known := fun _ hmem => absurd hmem List.not_mem_nil
  maxLat := rfl
  minLat := rfl

theorem Ctx.Shows.stats {c : Ctx} {v : Survey} (h : c.Shows v) : c.stats = v.stats := by
  have hloss : (if c.replies + c.timeouts ≠ 0 then
      (c.timeouts * 100) / (c.replies + c.timeouts) else 0) = 0 := by
    rw [h.timeouts, UInt32.zero_mul, UInt32.zero_div, ite_self]
  have hleast : (if c.minLat = 0xFFFFFFFF then 0 else c.minLat) =
      if 5 ∈ v.latencies ∧ 0 ∉ v.latencies then 5 else 0 := by
    rw [h.minLat]
    by_cases hzero : 0 ∈ v.latencies <;> by_cases hfive : 5 ∈ v.latencies <;>
      simp [hzero, hfive]
  rw [Ctx.stats, hloss, hleast, h.replies, h.timeouts, h.dups, h.sumLat, h.countLat, h.maxLat]
  rfl

theorem Ctx.Shows.stamp {c : Ctx} {v : Survey} (h : c.Shows v) (ts : UInt64) :
    (c.stamp ts).Shows v :=
  { h with }

/-- The time of the answer is taken for that of the probe. -/
theorem latency_stamp (c : Ctx) (ts : UInt64) :
    (c.stamp ts).latency ts = if ts = 0 then 5 else 0 := by
  by_cases hts : ts = 0
  · subst hts
    rw [Ctx.latency, if_neg fun h => h.2 rfl, if_pos rfl]
  · have hsent : (c.stamp ts).sendTs = ts := if_pos hts
    rw [Ctx.latency, hsent, if_pos ⟨hts, hts⟩, if_neg (UInt64.lt_irrefl ts), if_neg hts]

/-- The words for one more answer, whatever it is. -/
theorem ofNat_succ (n : Nat) : UInt32.ofNat n + 1 = UInt32.ofNat (n + 1) :=
  (UInt32.ofNat_add n 1).symm

theorem buffer_qpush {c : Ctx} {v : Survey} (h : c.Shows v) (answer : Answer) :
    (c.push { type := .probeReply, seq := c.lastSeq, latencyMs := answer.latencyMs }).1.buffer =
      v.pending.push answer.event := by
  rw [QueueCtx.buffer_push, h.pending, h.lastSeq, Answer.event]

/-- One more latency, of the two that there are. -/
theorem max_cons {lat : UInt32} (hlat : lat = 0 ∨ lat = 5) (lats : List UInt32) :
    (if lat > (if 5 ∈ lats then 5 else 0) then lat else if 5 ∈ lats then 5 else 0) =
      if 5 ∈ lat :: lats then 5 else 0 := by
  rcases hlat with rfl | rfl <;> by_cases hfive : 5 ∈ lats <;> simp +decide [hfive]

theorem min_cons {lat : UInt32} (hlat : lat = 0 ∨ lat = 5) (lats : List UInt32) :
    (if lat < (if 0 ∈ lats then 0 else if 5 ∈ lats then 5 else 0xFFFFFFFF) then lat
      else if 0 ∈ lats then 0 else if 5 ∈ lats then 5 else 0xFFFFFFFF) =
      if 0 ∈ lat :: lats then 0 else if 5 ∈ lat :: lats then 5 else 0xFFFFFFFF := by
  rcases hlat with rfl | rfl <;> by_cases hzero : 0 ∈ lats <;> by_cases hfive : 5 ∈ lats <;>
    simp +decide [hzero, hfive]

theorem Ctx.Shows.tcpReply {c : Ctx} {v : Survey} (h : c.Shows v) (ts : UInt64) :
    ((c.stamp ts).tcpReply ts).Shows (v.add (.port (if ts = 0 then 5 else 0))) := by
  have hlat := latency_stamp c ts
  -- The context is stamped before the latency is measured, which is one of two values for that.
  have htwo : (c.stamp ts).latency ts = 0 ∨ (c.stamp ts).latency ts = 5 := by
    rw [hlat]
    split_ifs
    · exact .inr rfl
    · exact .inl rfl
  rw [← hlat]
  exact
    { role := h.role
      pending := buffer_qpush h (.port _)
      lastSeq := h.lastSeq
      waiting := rfl
      replies := (congrArg (· + 1) h.replies).trans (ofNat_succ _)
      timeouts := h.timeouts
      dups := h.dups
      sumLat := by
        show c.sumLat + (c.stamp ts).latency ts = UInt32.ofNat (total (_ :: v.latencies))
        rw [h.sumLat, total, total, List.map_cons, List.sum_cons, Nat.add_comm, UInt32.ofNat_add,
          UInt32.ofNat_toNat]
      countLat := (congrArg (· + 1) h.countLat).trans (ofNat_succ _)
      known := List.forall_mem_cons.2 ⟨htwo, h.known⟩
      maxLat := by
        show (if (c.stamp ts).latency ts > c.maxLat then (c.stamp ts).latency ts else c.maxLat) = _
        rw [h.maxLat]
        exact max_cons htwo v.latencies
      minLat := by
        show (if (c.stamp ts).latency ts < c.minLat then (c.stamp ts).latency ts else c.minLat) = _
        rw [h.minLat]
        exact min_cons htwo v.latencies }

theorem Ctx.Shows.icmpReply {c : Ctx} {v : Survey} (h : c.Shows v) :
    c.icmpReply.Shows (v.add .unreachable) :=
  { h with
    pending := buffer_qpush h .unreachable
    waiting := rfl
    replies := (congrArg (· + 1) h.replies).trans (ofNat_succ _) }

/-- Context and survey after a call. -/
def Together (ctx : Option Ctx) (v : Survey) : Prop :=
  ∃ c, ctx = some c ∧ c.Shows v

/-- The step lemma for packets, behind the checks. -/
theorem Ctx.Shows.feedBody {c : Ctx} {v : Survey} (h : c.Shows v) {d : List UInt8}
    (hlen : 20 ≤ d.length) (ts : UInt64) :
    RelOk (fun c' answer => c'.Shows (answer.elim v v.add)) (feedBody c d ts)
      (answerOf v.role d ts) := by
  rw [Nmapdiag.feedBody, rd_of_lt (by omega : 9 + 1 ≤ d.length), answerOf, ← h.role]
  by_cases htcp : d.getD 9 0 = 6 ∧ c.role = .requester
  · -- The context is stamped first, which leaves its role as it is.
    have hbody : d.getD 9 0 = 6 ∧ (c.stamp ts).role = .requester := htcp
    rw [if_pos htcp]
    show RelOk _ (if _ then _ else _) _
    rw [if_pos hbody]
    by_cases hshort : d.length ≤ 33
    · -- The flags lie behind the packet, which was only checked for an IP header.
      rw [if_pos hshort, rd_of_le hshort]
      exact .error _
    rw [if_neg hshort, rd_of_lt (by omega : 33 + 1 ≤ d.length)]
    refine .ok ?_
    by_cases hflags : d.getD 33 0 &&& 0x12 ≠ 0
    · rw [if_pos hflags, if_pos hflags]
      exact h.tcpReply ts
    · rw [if_neg hflags, if_neg hflags]
      exact h.stamp ts
  have hbody : ¬ (d.getD 9 0 = 6 ∧ (c.stamp ts).role = .requester) := htcp
  rw [if_neg htcp]
  show RelOk _ (if _ then _ else if _ then _ else _) _
  rw [if_neg hbody]
  by_cases hicmp : d.getD 9 0 = 1
  · rw [if_pos hicmp, if_pos hicmp]
    by_cases hshort : d.length ≤ 20
    · rw [if_pos hshort, rd_of_le hshort]
      exact .error _
    rw [if_neg hshort, rd_of_lt (by omega : 20 + 1 ≤ d.length)]
    refine .ok ?_
    by_cases hreply : (d.getD 20 0 = 3 ∨ d.getD 20 0 = 11) ∧ c.role = .requester
    · have hstamped : (d.getD 20 0 = 3 ∨ d.getD 20 0 = 11) ∧
          (c.stamp ts).role = .requester := hreply
      rw [if_pos hreply, if_pos hstamped]
      exact (h.stamp ts).icmpReply
    · have hstamped : ¬ ((d.getD 20 0 = 3 ∨ d.getD 20 0 = 11) ∧
          (c.stamp ts).role = .requester) := hreply
      rw [if_neg hreply, if_neg hstamped]
      exact h.stamp ts
  · rw [if_neg hicmp, if_neg hicmp]
    exact .ok (h.stamp ts)

theorem Ctx.Shows.feed {c : Ctx} {v : Survey} (h : c.Shows v) (d : Option (List UInt8))
    (ts : UInt64) :
    RelOk (fun x y => Together x.2 y.1 ∧ Result.code x.1 = y.2) (feedInputWithTs (some c) d ts)
      (v.feed d ts) := by
  cases d with
  | none => exact .ok ⟨⟨c, rfl, h⟩, rfl⟩
  | some d =>
      rw [Survey.feed, feedInputWithTs]
      split_ifs with hshort
      · exact .ok ⟨⟨c, rfl, h⟩, rfl⟩
      · have hbody := h.feedBody (Nat.le_of_not_lt hshort) ts
        generalize Nmapdiag.feedBody c d ts = left at hbody ⊢
        generalize answerOf v.role d ts = right at hbody ⊢
        cases hbody with
        | ok hshows => exact .ok ⟨⟨_, rfl, hshows⟩, rfl⟩
        | error e => exact .error e

/-- The step lemma: a context and a survey that agree do so after every call, and the call returns
the same. -/
theorem step_together (ctx : Option Ctx) (v : Survey) (call : Call) (h : Together ctx v) :
    RelOk (fun x y => Together x.1 y.1 ∧ x.2 = y.2) (step ctx call) (v.step call) := by
  rcases h with ⟨c, rfl, h⟩
  have hfeed : ∀ d ts, RelOk (fun x y => Together x.1 y.1 ∧ x.2 = y.2)
      (feedInputWithTs (some c) d ts >>= fun x => .ok (x.2, Result.code x.1)) (v.feed d ts) :=
    fun d ts => (h.feed d ts).map_left fun x y hxy => hxy
  cases call with
  | feedInput d => exact hfeed d 0
  | feedInputWithTs d ts => exact hfeed d ts
  | process ts =>
      -- Nothing has been waiting since the context was created.
      have hidle : ¬ c.Expired ts := fun hexpired => by
        rw [Ctx.Expired, h.waiting] at hexpired
        exact absurd hexpired.1 (by decide)
      refine .ok ⟨⟨c, ?_, h⟩, rfl⟩
      rw [process, if_neg hidle]
  | nextEvent e =>
      cases e with
      | none => exact .ok ⟨⟨c, rfl, h⟩, rfl⟩
      | some e =>
          rcases QueueCtx.pop_of_buffer h.pending e with ⟨hcode, hbuffer, hevent⟩
          have hrole := (c.toQueueCtx.role_pop e).trans h.role
          refine .ok ⟨⟨_, rfl, { h with role := hrole, pending := hbuffer }⟩, ?_⟩
          rw [← hcode, ← hevent]
          rfl
  | getStats s =>
      cases s with
      | none => exact .ok ⟨⟨c, rfl, h⟩, rfl⟩
      | some s => exact .ok ⟨⟨c, rfl, h⟩, by rw [← h.stats]; rfl⟩
  | reset =>
      refine .ok ⟨⟨_, rfl, ?_⟩, rfl⟩
      have hnew := shows_new c.role c.ring.1 c.sendTs c.qsz
      refine { hnew with role := h.role, pending := ?_, lastSeq := h.lastSeq }
      rw [← h.pending]
      exact c.toQueueCtx.buffer_reset 8 Probe.dfltProbeQsz_pos c.role

/-- No caller can tell the module from a survey: for contexts of any size and role, any calls give
the same results, and read outside a packet at the same call if they do. -/
theorem nmapdiag_is_survey (role : Role) (config : Option Config) (calls : List Call) :
    observe step (some (createWithConfig role config)) calls =
      observe Survey.step (.new role (config.elim 8 Config.eventQueueSize)) calls := by
  refine observe_eq_of_bisim (R := Together) step_together ⟨_, rfl, ?_⟩ calls
  cases config with
  | none => exact shows_new role _ 0 8
  | some config => exact shows_new role _ 0 config.eventQueueSize

end Nmapdiag
end Netdiag
