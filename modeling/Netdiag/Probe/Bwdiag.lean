import Netdiag.Lib.Quotient
import Netdiag.Probe.Events

/-!
# Bwdiag — the bandwidth module

`src/bwdiag.c`: a packet that comes in some time after another one makes a sample, the bytes per
second since then.  The time is narrowed to 32 bits before it divides.  Over a run of all calls no
division fails and every sample is exact if and only if no narrowing does harm
(`samples_exact_iff`).
-/

namespace Netdiag
namespace Bwdiag

open Lib
open Probe (Role Config Event Stats Call Result)

/-! ## The module -/

/-- A division that the machine stops at. -/
inductive Trap
  | divisionByZero
  deriving DecidableEq, Repr

/-- `struct bwdiag_ctx`. -/
structure Ctx extends QueueCtx Role Event where
  lastTs : UInt64
  bytes : UInt32
  replies : UInt32
  timeouts : UInt32
  dups : UInt32
  sumLat : UInt32
  maxLat : UInt32
  minLat : UInt32
  countLat : UInt32

def qinit (role : Role) (r : RawRing Event maxQ) (s : Nat) : Ctx :=
  { QueueCtx.init 8 Probe.dfltProbeQsz_pos role r s with
      lastTs := 0
      bytes := 0
      replies := 0
      timeouts := 0
      dups := 0
      sumLat := 0
      maxLat := 0
      minLat := 0xFFFFFFFF
      countLat := 0 }

/-- `qpush`, whose result no caller looks at. -/
def Ctx.qpush (c : Ctx) (e : Event) : Ctx :=
  { c with toQueueCtx := (c.push e).1 }

def createWithConfig (role : Role) (config : Option Config) : Ctx :=
  qinit role (RawRing.calloc {}) (match config with
    | some config => config.eventQueueSize
    | none => 8)

def create (role : Role) : Ctx :=
  createWithConfig role none

def reset (ctx : Option Ctx) : Option Ctx :=
  ctx.map fun c => qinit c.role c.ring.1 c.qsz

/-- The quotient of a `size_t` by a word. -/
def div (a : Nat) (b : UInt32) : Except Trap Nat :=
  if b = 0 then .error .divisionByZero else .ok (a / b.toNat)

/-- `dt`, the time since the last packet, in a word. -/
def Ctx.gap (c : Ctx) (ts : UInt64) : UInt32 :=
  if ts > c.lastTs then (ts - c.lastTs).toUInt32 else 1

/-- The block for a packet that comes after another one. -/
def sample (p : Platform) (c : Ctx) (d : List UInt8) (ts : UInt64) : Except Trap Ctx := do
  let bps ← div (d.length * 1000 % p.sizeMod) (c.gap ts)
  let ev : Event := { type := .bwSample, seq := c.bytes, latencyMs := UInt32.ofNat bps }
  return { c.qpush ev with
    replies := c.replies + 1
    bytes := c.bytes + UInt32.ofNat d.length }

def feedInputWithTs (p : Platform) (ctx : Option Ctx) (d : Option (List UInt8)) (ts : UInt64) :
    Except Trap (Int × Option Ctx) :=
  match ctx, d with
  | some c, some d =>
      if d.length = 0 then
        return (-1, some c)
      else do
        let c ← if ts ≠ 0 ∧ c.lastTs ≠ 0 then sample p c d ts else pure c
        return (0, some { c with lastTs := if ts ≠ 0 then ts else c.lastTs })
  | _, _ => return (-1, ctx)

def feedInput (p : Platform) (ctx : Option Ctx) (d : Option (List UInt8)) :
    Except Trap (Int × Option Ctx) :=
  feedInputWithTs p ctx d 0

/-- `bwdiag_process` does nothing, for a null pointer too. -/
def process (ctx : Option Ctx) (_ : UInt64) : Int × Option Ctx :=
  (0, ctx)

def nextEvent (ctx : Option Ctx) (e : Option Event) : Int × Option Ctx × Option Event :=
  match ctx, e with
  | some c, some e =>
      match c.pop e with
      | (r, q, e') => (r, some { c with toQueueCtx := q }, some e')
  | _, _ => (-1, ctx, e)

def Ctx.stats (c : Ctx) : Stats where
  replies := c.replies
  timeouts := c.timeouts
  duplicates := c.dups
  lossPct := 0
  avgLatencyMs := if c.countLat ≠ 0 then c.sumLat / c.countLat else 0
  maxLatencyMs := c.maxLat
  minLatencyMs := if c.minLat = 0xFFFFFFFF then 0 else c.minLat

def getStats (ctx : Option Ctx) (s : Option Stats) : Int × Option Stats :=
  match ctx, s with
  | some c, some _ => (0, some c.stats)
  | _, _ => (-1, s)

/-- The system of a context and its caller. -/
def step (p : Platform) (ctx : Option Ctx) : Call → Except Trap (Option Ctx × Result)
  | .feedInput d => do
      let (r, ctx) ← feedInput p ctx d
      return (ctx, .code r)
  | .feedInputWithTs d ts => do
      let (r, ctx) ← feedInputWithTs p ctx d ts
      return (ctx, .code r)
  | .process ts => return ((process ctx ts).2, .code (process ctx ts).1)
  | .nextEvent e =>
      let (r, ctx, e) := nextEvent ctx e
      return (ctx, .event r e)
  | .getStats s => return (ctx, .stats (getStats ctx s).1 (getStats ctx s).2)
  | .reset => return (reset ctx, .done)

/-! ## What a packet does -/

theorem step_feed {p : Platform} {c : Ctx} {call : Call} {d : List UInt8} {ts : UInt64}
    (hcall : call.Feeds d ts) :
    step p (some c) call =
      feedInputWithTs p (some c) (some d) ts >>= fun x => .ok (x.2, .code x.1) := by
  rcases hcall with rfl | ⟨rfl, rfl⟩ <;> rfl

/-- The packet comes after another one. -/
def Ctx.Follows (c : Ctx) (ts : UInt64) : Prop :=
  ts ≠ 0 ∧ c.lastTs ≠ 0

instance (c : Ctx) (ts : UInt64) : Decidable (c.Follows ts) :=
  inferInstanceAs (Decidable (_ ∧ _))

def sampleEvent (p : Platform) (c : Ctx) (d : List UInt8) (ts : UInt64) : Event where
  type := .bwSample
  seq := c.bytes
  latencyMs := UInt32.ofNat (d.length * 1000 % p.sizeMod / (c.gap ts).toNat)

/-- The context with the sample of a packet, if the packet is one. -/
def sampled (p : Platform) (c : Ctx) (d : List UInt8) (ts : UInt64) : Ctx :=
  if c.Follows ts then
    { c.qpush (sampleEvent p c d ts) with
        replies := c.replies + 1
        bytes := c.bytes + UInt32.ofNat d.length }
  else c

/-- What the module makes of a packet, unless it divides by zero. -/
def fed (p : Platform) (c : Ctx) (d : List UInt8) (ts : UInt64) : Ctx :=
  { sampled p c d ts with lastTs := if ts ≠ 0 then ts else (sampled p c d ts).lastTs }

theorem feed_eq {p : Platform} {c : Ctx} {d : List UInt8} {ts : UInt64} (hlen : 0 < d.length)
    (hgap : c.Follows ts → c.gap ts ≠ 0) :
    feedInputWithTs p (some c) (some d) ts = .ok (0, some (fed p c d ts)) := by
  rw [feedInputWithTs, if_neg hlen.ne', fed, sampled]
  by_cases hfollows : c.Follows ts
  · have hboth : ts ≠ 0 ∧ c.lastTs ≠ 0 := hfollows
    rw [if_pos hboth, sample, div, if_neg (hgap hfollows), if_pos hfollows]
    rfl
  · have hnot : ¬ (ts ≠ 0 ∧ c.lastTs ≠ 0) := hfollows
    rw [if_neg hnot, if_neg hfollows]
    rfl

theorem feed_traps {p : Platform} {c : Ctx} {d : List UInt8} {ts : UInt64} (hlen : 0 < d.length)
    (hfollows : c.Follows ts) (hgap : c.gap ts = 0) :
    feedInputWithTs p (some c) (some d) ts = .error .divisionByZero := by
  have hboth : ts ≠ 0 ∧ c.lastTs ≠ 0 := hfollows
  rw [feedInputWithTs, if_neg hlen.ne', if_pos hboth, sample, div, if_pos hgap]
  rfl

theorem lastTs_fed (p : Platform) (c : Ctx) (d : List UInt8) (ts : UInt64) :
    (fed p c d ts).lastTs = if ts ≠ 0 then ts else c.lastTs := by
  have hkept : (sampled p c d ts).lastTs = c.lastTs := by
    rw [sampled]
    split_ifs <;> rfl
  rw [fed, hkept]

/-! ### The time since the last packet -/

theorem toNat_gap {c : Ctx} {ts : UInt64} (h : c.lastTs.toNat < ts.toNat) :
    (c.gap ts).toNat = (ts.toNat - c.lastTs.toNat) % 2 ^ 32 := by
  have hlt : ts > c.lastTs := UInt64.lt_iff_toNat_lt.2 h
  have hle : c.lastTs ≤ ts := UInt64.le_iff_toNat_le.2 h.le
  rw [Ctx.gap, if_pos hlt, UInt64.toNat_toUInt32, UInt64.toNat_sub_of_le _ _ hle]

theorem gap_eq_one {c : Ctx} {ts : UInt64} (h : ¬ c.lastTs.toNat < ts.toNat) : c.gap ts = 1 :=
  if_neg fun hlt => h (UInt64.lt_iff_toNat_lt.1 hlt)

theorem gap_ne_zero_iff (c : Ctx) (ts : UInt64) :
    c.gap ts ≠ 0 ↔
      (c.lastTs.toNat < ts.toNat → (ts.toNat - c.lastTs.toNat) % 2 ^ 32 ≠ 0) := by
  by_cases hlt : c.lastTs.toNat < ts.toNat
  · rw [← toNat_gap hlt, forall_prop_of_true hlt]
    exact (@UInt32.toNat_inj (c.gap ts) 0).not.symm
  · rw [gap_eq_one hlt]
    exact iff_of_true (by decide) fun h => absurd h hlt

/-! ## Samples -/

/-- The context with an empty queue of 32 places. -/
def Ctx.roomy (c : Ctx) : Ctx :=
  { c with toQueueCtx := QueueCtx.init 8 Probe.dfltProbeQsz_pos c.role (RawRing.calloc {}) 32 }

/-- The events that a call generates: what it leaves in the queue if there is room for all. -/
def generated (p : Platform) (c : Ctx) (call : Call) : List Event :=
  match step p (some c.roomy) call with
  | .ok (some c', _) => c'.queued
  | _ => []

theorem generated_feed {p : Platform} {c : Ctx} {call : Call} {d : List UInt8} {ts : UInt64}
    (hcall : call.Feeds d ts) (hlen : 0 < d.length) (hfollows : c.Follows ts)
    (hgap : c.gap ts ≠ 0) : generated p c call = [sampleEvent p c d ts] := by
  have hfed : feedInputWithTs p (some c.roomy) (some d) ts = .ok (0, some (fed p c.roomy d ts)) :=
    feed_eq hlen fun _ => hgap
  have hqueue : (fed p c.roomy d ts).toQueueCtx =
      c.roomy.toQueueCtx.pushAll [sampleEvent p c d ts] := by
    have hroomy : c.roomy.Follows ts := hfollows
    rw [fed, sampled, if_pos hroomy]
    rfl
  rw [generated, step_feed hcall, hfed]
  show (fed p c.roomy d ts).queued = _
  rw [hqueue]
  exact QueueCtx.queued_pushAll_of_nil (QueueCtx.queued_init _ _ _ _ _) _ (by decide : 1 ≤ 32)

/-- A packet that comes later than another one makes an event with the bytes per second between
them, unless these are too many for the event. -/
def Told (c : Ctx) (call : Call) : Prop :=
  ∀ d ts, call.Feeds d ts → 0 < d.length → 0 < c.lastTs.toNat → c.lastTs.toNat < ts.toNat →
    1000 * d.length < 2 ^ 64 → 1000 * d.length / (ts.toNat - c.lastTs.toNat) < 2 ^ 32 →
      ∃ ev, generated .lp64 c call = [ev] ∧ ev.type = .bwSample ∧
        ev.latencyMs.toNat = 1000 * d.length / (ts.toNat - c.lastTs.toNat)

/-- The calls return, all of them, and their samples are exact. -/
def Exact (c : Ctx) : List Call → Prop
  | [] => True
  | call :: calls => Told c call ∧
      ∃ c' r, step .lp64 (some c) call = .ok (some c', r) ∧ Exact c' calls

/-- Narrowing the time does no harm: it fits into a word; or it does not become 0, and the bytes
beyond the rate over what is left of it make no rate themselves, up to multiples of `2 ^ 32`. -/
def Narrows (bytes time : Nat) : Prop :=
  time < 2 ^ 32 ∨ time % 2 ^ 32 ≠ 0 ∧ (bytes < 2 ^ 64 →
    (bytes - bytes / time * (time % 2 ^ 32)) % (2 ^ 32 * (time % 2 ^ 32)) < time % 2 ^ 32)

/-- So it is for the call if the last packet came at this time. -/
def Fits (last : UInt64) (call : Call) : Prop :=
  ∀ d ts, call.Feeds d ts → 0 < d.length → 0 < last.toNat → last.toNat < ts.toNat →
    Narrows (1000 * d.length) (ts.toNat - last.toNat)

/-- The time of the last packet after the call. -/
def lastAfter (last : UInt64) : Call → UInt64
  | .feedInputWithTs (some d) ts => if 0 < d.length ∧ ts ≠ 0 then ts else last
  | .reset => 0
  | _ => last

/-- So it is for all calls. -/
def AllFit (last : UInt64) : List Call → Prop
  | [] => True
  | call :: calls => Fits last call ∧ AllFit (lastAfter last call) calls

theorem narrows_iff {bytes time : Nat} (htime : 0 < time) :
    Narrows bytes time ↔ time % 2 ^ 32 ≠ 0 ∧ (bytes < 2 ^ 64 → bytes / time < 2 ^ 32 →
      bytes / (time % 2 ^ 32) % 2 ^ 32 = bytes / time) := by
  rw [Narrows]
  by_cases hsmall : time < 2 ^ 32
  · refine iff_of_true (.inl hsmall) ?_
    rw [Nat.mod_eq_of_lt hsmall]
    exact ⟨htime.ne', fun _ hquot => Nat.mod_eq_of_lt hquot⟩
  · have hlarge := Nat.le_of_not_lt hsmall
    rw [or_iff_right hsmall]
    refine and_congr_right fun hne => imp_congr_right fun hbytes => ?_
    -- The rate fits into a word, and only the narrowed divisor can change it.
    have hquot : bytes / time < 2 ^ 32 := by
      apply Nat.div_lt_of_lt_mul
      calc
        bytes < 2 ^ 32 * 2 ^ 32 := hbytes
        _ ≤ time * 2 ^ 32 := Nat.mul_le_mul_right _ hlarge
    rw [forall_prop_of_true hquot]
    exact (div_mod_mod_eq_iff hne hquot).symm

theorem toNat_latencyMs {c : Ctx} {d : List UInt8} {ts : UInt64}
    (hlater : c.lastTs.toNat < ts.toNat) (hfew : 1000 * d.length < 2 ^ 64) :
    (sampleEvent .lp64 c d ts).latencyMs.toNat =
      1000 * d.length / ((ts.toNat - c.lastTs.toNat) % 2 ^ 32) % 2 ^ 32 := by
  have hproduct : d.length * 1000 % 2 ^ 64 = 1000 * d.length := by
    rw [Nat.mul_comm, Nat.mod_eq_of_lt hfew]
  show (UInt32.ofNat (d.length * 1000 % 2 ^ 64 / (c.gap ts).toNat)).toNat = _
  rw [hproduct, toNat_gap hlater]
  exact UInt32.toNat_ofNat'

/-! ## Runs -/

theorem feeds_unique {call : Call} {d d' : List UInt8} {ts ts' : UInt64} (h : call.Feeds d ts)
    (h' : call.Feeds d' ts') : d = d' ∧ ts = ts' := by
  rcases h with rfl | ⟨rfl, rfl⟩
  · rcases h' with heq | ⟨heq, _⟩ <;> cases heq
    exact ⟨rfl, rfl⟩
  · rcases h' with heq | ⟨heq, rfl⟩ <;> cases heq
    exact ⟨rfl, rfl⟩

/-- A call without a packet of at least one byte returns. -/
theorem step_of_no_packet (p : Platform) (c : Ctx) {call : Call}
    (h : ∀ d ts, call.Feeds d ts → ¬ 0 < d.length) :
    ∃ c' r, step p (some c) call = .ok (some c', r) ∧ c'.lastTs = lastAfter c.lastTs call := by
  have hempty : ∀ d ts, call.Feeds d ts →
      step p (some c) call = .ok (some c, .code (-1)) := by
    intro d ts hcall
    have hzero : d.length = 0 := Nat.eq_zero_of_not_pos (h d ts hcall)
    rw [step_feed hcall, feedInputWithTs, if_pos hzero]
    rfl
  cases call with
  | feedInput d =>
      cases d with
      | none => exact ⟨c, _, rfl, rfl⟩
      | some d => exact ⟨c, _, hempty d 0 (.inr ⟨rfl, rfl⟩), rfl⟩
  | feedInputWithTs d ts =>
      cases d with
      | none => exact ⟨c, _, rfl, rfl⟩
      | some d =>
          have hcall : (Call.feedInputWithTs (some d) ts).Feeds d ts := .inl rfl
          exact ⟨c, _, hempty d ts hcall, (if_neg fun hboth => h d ts hcall hboth.1).symm⟩
  | process ts => exact ⟨c, _, rfl, rfl⟩
  | nextEvent e =>
      cases e with
      | none => exact ⟨c, _, rfl, rfl⟩
      | some e => exact ⟨_, _, rfl, rfl⟩
  | getStats s => exact ⟨c, _, rfl, rfl⟩
  | reset => exact ⟨_, _, rfl, rfl⟩

/-- A packet returns unless its time narrows to 0. -/
theorem step_of_packet {p : Platform} {c : Ctx} {call : Call} {d : List UInt8} {ts : UInt64}
    (hcall : call.Feeds d ts) (hlen : 0 < d.length) (hgap : c.Follows ts → c.gap ts ≠ 0) :
    step p (some c) call = .ok (some (fed p c d ts), .code 0) ∧
      (fed p c d ts).lastTs = lastAfter c.lastTs call := by
  refine ⟨?_, ?_⟩
  · rw [step_feed hcall, feed_eq hlen hgap]
    rfl
  · rw [lastTs_fed]
    rcases hcall with rfl | ⟨rfl, rfl⟩
    · rw [lastAfter]
      by_cases hts : ts ≠ 0
      · rw [if_pos hts, if_pos ⟨hlen, hts⟩]
      · rw [if_neg hts, if_neg fun h => hts h.2]
    · rfl

/-- A packet that comes later than another one. -/
theorem told_iff_of_later {c : Ctx} {call : Call} {d : List UInt8} {ts : UInt64}
    (hcall : call.Feeds d ts) (hlen : 0 < d.length) (hlast : 0 < c.lastTs.toNat)
    (hlater : c.lastTs.toNat < ts.toNat) :
    (Told c call ∧ ∃ c' r, step .lp64 (some c) call = .ok (some c', r)) ↔
      Narrows (1000 * d.length) (ts.toNat - c.lastTs.toNat) := by
  have hfollows : c.Follows ts := by
    refine ⟨?_, ?_⟩
    · rintro rfl
      exact absurd hlater (Nat.not_lt_zero _)
    · intro hzero
      rw [hzero] at hlast
      exact absurd hlast (by decide)
  rw [narrows_iff (Nat.sub_pos_of_lt hlater)]
  by_cases hgap : c.gap ts ≠ 0
  -- The call returns, with the quotient by the narrowed time.
  · have hne := (gap_ne_zero_iff c ts).1 hgap hlater
    have hreturns := (step_of_packet (p := .lp64) hcall hlen fun _ => hgap).1
    have hevents := generated_feed (p := .lp64) hcall hlen hfollows hgap
    rw [and_iff_left ⟨_, _, hreturns⟩, and_iff_right hne]
    constructor
    · intro htold hfew hquot
      rcases htold d ts hcall hlen hlast hlater hfew hquot with ⟨ev, hev, _, hlat⟩
      rw [hevents] at hev
      obtain rfl := List.singleton_inj.1 hev
      rw [← hlat, toNat_latencyMs hlater hfew]
    · intro hexact d' ts' hcall' _ _ _ hfew hquot
      rcases feeds_unique hcall hcall' with ⟨rfl, rfl⟩
      refine ⟨_, hevents, rfl, ?_⟩
      rw [toNat_latencyMs hlater hfew, hexact hfew hquot]
  -- The machine stops, where the time has narrowed to 0.
  · have hzero := not_not.1 hgap
    have hnot := (gap_ne_zero_iff c ts).not.1 hgap
    refine iff_of_false ?_ fun h => hnot fun _ => h.1
    intro h
    rcases h.2 with ⟨c', r, hstep⟩
    rw [step_feed hcall, feed_traps hlen hfollows hzero] at hstep
    cases hstep

/-- The step lemma. -/
theorem told_iff (c : Ctx) (call : Call) :
    (Told c call ∧ ∃ c' r, step .lp64 (some c) call = .ok (some c', r)) ↔
      Fits c.lastTs call := by
  by_cases hpacket : ∃ d ts, call.Feeds d ts ∧ 0 < d.length ∧ 0 < c.lastTs.toNat ∧
      c.lastTs.toNat < ts.toNat
  · rcases hpacket with ⟨d, ts, hcall, hlen, hlast, hlater⟩
    rw [told_iff_of_later hcall hlen hlast hlater]
    constructor
    · intro hnarrows d' ts' hcall' _ _ _
      rcases feeds_unique hcall hcall' with ⟨rfl, rfl⟩
      exact hnarrows
    · intro hfits
      exact hfits d ts hcall hlen hlast hlater
  · -- Nothing is said of the call, and it returns.
    have hnone : ∀ d ts, call.Feeds d ts → 0 < d.length → 0 < c.lastTs.toNat →
        ¬ c.lastTs.toNat < ts.toNat :=
      fun d ts hcall hlen hlast hlater => hpacket ⟨d, ts, hcall, hlen, hlast, hlater⟩
    refine iff_of_true ⟨?_, ?_⟩ ?_
    · intro d ts hcall hlen hlast hlater
      exact absurd hlater (hnone d ts hcall hlen hlast)
    · by_cases hfeeds : ∃ d ts, call.Feeds d ts ∧ 0 < d.length
      · rcases hfeeds with ⟨d, ts, hcall, hlen⟩
        refine ⟨_, _, (step_of_packet hcall hlen fun hfollows => ?_).1⟩
        rw [gap_ne_zero_iff]
        intro hlater
        have hlast : 0 < c.lastTs.toNat :=
          Nat.pos_of_ne_zero fun hzero => hfollows.2 (UInt64.toNat_inj.1 hzero)
        exact absurd hlater (hnone d ts hcall hlen hlast)
      · rcases step_of_no_packet .lp64 c fun d ts hcall hlen => hfeeds ⟨d, ts, hcall, hlen⟩ with
          ⟨c', r, hstep, _⟩
        exact ⟨c', r, hstep⟩
    · intro d ts hcall hlen hlast hlater
      exact absurd hlater (hnone d ts hcall hlen hlast)

theorem lastTs_of_step {p : Platform} {c c' : Ctx} {call : Call} {r : Result}
    (h : step p (some c) call = .ok (some c', r)) : c'.lastTs = lastAfter c.lastTs call := by
  by_cases hfeeds : ∃ d ts, call.Feeds d ts ∧ 0 < d.length
  · rcases hfeeds with ⟨d, ts, hcall, hlen⟩
    have hgap : c.Follows ts → c.gap ts ≠ 0 := by
      intro hfollows hzero
      rw [step_feed hcall, feed_traps hlen hfollows hzero] at h
      cases h
    have hfed := step_of_packet (p := p) hcall hlen hgap
    cases hfed.1.symm.trans h
    exact hfed.2
  · rcases step_of_no_packet p c fun d ts hcall hlen => hfeeds ⟨d, ts, hcall, hlen⟩ with
      ⟨c'', r'', hstep, hlast⟩
    cases hstep.symm.trans h
    exact hlast

theorem exact_iff (c : Ctx) (calls : List Call) : Exact c calls ↔ AllFit c.lastTs calls := by
  induction calls generalizing c with
  | nil => exact Iff.rfl
  | cons call calls ih =>
      rw [Exact, AllFit, ← told_iff]
      constructor
      · intro h
        rcases h with ⟨htold, c', r, hstep, hrest⟩
        refine ⟨⟨htold, c', r, hstep⟩, ?_⟩
        rw [← lastTs_of_step hstep]
        exact (ih c').1 hrest
      · intro h
        rcases h with ⟨⟨htold, c', r, hstep⟩, hrest⟩
        rw [← lastTs_of_step hstep] at hrest
        exact ⟨htold, c', r, hstep, (ih c').2 hrest⟩

/-- In every run, all calls return with exact samples if and only if no narrowing does harm. -/
theorem samples_exact_iff (role : Role) (config : Option Config) (calls : List Call) :
    Exact (createWithConfig role config) calls ↔ AllFit 0 calls :=
  exact_iff (createWithConfig role config) calls

/-- A byte at time 1 and one `2 ^ 32` later, or one millisecond more, for which 1000 bytes per
second are told. -/
theorem samples_inexact :
    feedInputWithTs .lp64 (some (fed .lp64 (create .requester) [0] 1)) (some [0]) 0x100000001 =
      .error .divisionByZero ∧
    ¬ Exact (create .requester)
      [.feedInputWithTs (some [0]) 1, .feedInputWithTs (some [0]) 0x100000001] ∧
    generated .lp64 (fed .lp64 (create .requester) [0] 1)
      (.feedInputWithTs (some [0]) 0x100000002) = [{ type := .bwSample, latencyMs := 1000 }] ∧
    ¬ Exact (create .requester)
      [.feedInputWithTs (some [0]) 1, .feedInputWithTs (some [0]) 0x100000002] := by
  have hinexact : generated .lp64 (fed .lp64 (create .requester) [0] 1)
      (.feedInputWithTs (some [0]) 0x100000002) = [{ type := .bwSample, latencyMs := 1000 }] := by
    decide
  refine ⟨rfl, ?_, hinexact, ?_⟩
  · intro h
    rcases h with ⟨_, c', r, hfirst, _, c'', r', hsecond, _⟩
    cases hfirst
    cases hsecond
  · intro h
    rcases h with ⟨_, c', r, hfirst, htold, _⟩
    cases hfirst
    rcases htold [0] 0x100000002 (.inl rfl) (by decide) (by decide) (by decide) (by decide)
      (by decide) with ⟨ev, hev, _, hlat⟩
    cases hinexact.symm.trans hev
    exact absurd hlat (by decide)

end Bwdiag
end Netdiag
