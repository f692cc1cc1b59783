import Netdiag.Buffer
import Netdiag.Probe.Bwdiag

/-!
# Watch — what the bandwidth module is for

A watch remembers the packets that came with a time since it was created or reset.  Each of them
but the first makes a sample: the rate since the packet before it, and how many bytes the samples
before it had.  The module has a few words in the place of this memory, and no caller can tell the
two apart, whatever calls are made (`bwdiag_is_watch`).
-/

namespace Netdiag
namespace Bwdiag

open Lib
open Probe (Role Config Event Stats Call Result)

/-! ## Watches -/

structure Packet where
  bytes : Nat
  ts : UInt64

/-- The packets, the last one first, and the samples that nobody has taken. -/
structure Watch where
  packets : List Packet
  pending : Buffer Event

namespace Watch

def new (size : Nat) : Watch where
  packets := []
  pending := newBuffer 8 size

/-- The time between two packets as the module has it: in a word, and 1 if it runs backwards. -/
def elapsed (before after : UInt64) : Nat :=
  if before.toNat < after.toNat then (after.toNat - before.toNat) % 2 ^ 32 else 1

/-- How many packets have made samples. -/
def samples (w : Watch) : Nat :=
  w.packets.length - 1

/-- The bytes of the packets that have made samples. -/
def total (w : Watch) : Nat :=
  (w.packets.dropLast.map Packet.bytes).sum

/-- A packet with a time comes. -/
def take (p : Platform) (w : Watch) (packet : Packet) : Except Trap Watch :=
  match w.packets with
  | [] => .ok { w with packets := [packet] }
  | before :: _ =>
      if elapsed before.ts packet.ts = 0 then .error .divisionByZero
      else .ok
        { packets := packet :: w.packets
          pending := w.pending.push
            { type := .bwSample
              seq := UInt32.ofNat w.total
              latencyMs := UInt32.ofNat
                (packet.bytes * 1000 % p.sizeMod / elapsed before.ts packet.ts) } }

/-- Packets without bytes are refused, and those without a time do nothing. -/
def feed (p : Platform) (w : Watch) (d : Option (List UInt8)) (ts : UInt64) :
    Except Trap (Watch × Result) :=
  match d with
  | none => .ok (w, .code (-1))
  | some d =>
      if d = [] then .ok (w, .code (-1))
      else if ts = 0 then .ok (w, .code 0)
      else (w.take p ⟨d.length, ts⟩).map fun w => (w, .code 0)

/-- All samples are replies, and there is nothing else to count. -/
def stats (w : Watch) : Stats where
  replies := UInt32.ofNat w.samples
  timeouts := 0
  duplicates := 0
  lossPct := 0
  avgLatencyMs := 0
  maxLatencyMs := 0
  minLatencyMs := 0

def step (p : Platform) (w : Watch) : Call → Except Trap (Watch × Result)
  | .feedInput d => w.feed p d 0
  | .feedInputWithTs d ts => w.feed p d ts
  | .process _ => .ok (w, .code 0)
  | .nextEvent none => .ok (w, .event (-1) none)
  | .nextEvent (some e) =>
      .ok ({ w with pending := (w.pending.pop e).2.1 },
        .event (w.pending.pop e).1 (some (w.pending.pop e).2.2))
  | .getStats none => .ok (w, .stats (-1) none)
  | .getStats (some _) => .ok (w, .stats 0 (some w.stats))
  | .reset => .ok ({ packets := [], pending := w.pending.clear }, .done)

end Watch

/-! ## The module is a watch -/

/-- The words of the context are those of the watch. -/
structure Ctx.Shows (c : Ctx) (w : Watch) : Prop where
  pending : c.buffer = w.pending
  timed : ∀ packet ∈ w.packets, packet.ts ≠ 0
  lastTs : c.lastTs = (w.packets.head?.map Packet.ts).getD 0
  bytes : c.bytes = UInt32.ofNat w.total
  replies : c.replies = UInt32.ofNat w.samples
  timeouts : c.timeouts = 0
  dups : c.dups = 0
  countLat : c.countLat = 0
  maxLat : c.maxLat = 0
  minLat : c.minLat = 0xFFFFFFFF

theorem shows_new (role : Role) (r : RawRing Event maxQ) (size : Nat) :
    (qinit role r size).Shows (.new size) where
  pending := QueueCtx.buffer_init _ (by decide) _ _ _
  timed := fun _ hmem => absurd hmem List.not_mem_nil
  lastTs := rfl
  bytes := rfl
  replies := rfl
  timeouts := rfl
  dups := rfl
  countLat := rfl
  maxLat := rfl
  minLat := rfl

theorem Ctx.Shows.stats {c : Ctx} {w : Watch} (h : c.Shows w) : c.stats = w.stats := by
  rw [Ctx.stats, Watch.stats, h.replies, h.timeouts, h.dups, h.countLat, h.maxLat, h.minLat]
  rfl

theorem toNat_gap_eq (c : Ctx) (ts : UInt64) :
    (c.gap ts).toNat = Watch.elapsed c.lastTs ts := by
  rw [Watch.elapsed]
  split_ifs with hlater
  · exact toNat_gap hlater
  · rw [gap_eq_one hlater]
    rfl

/-- What the module makes of a packet without a time. -/
theorem fed_untimed (p : Platform) (c : Ctx) (d : List UInt8) : fed p c d 0 = c := by
  rw [fed, sampled, if_neg fun h => h.1 rfl, if_neg fun h => h rfl]

/-- What the module makes of the first packet with a time. -/
theorem fed_first {p : Platform} {c : Ctx} {d : List UInt8} {ts : UInt64} (h : c.lastTs = 0)
    (hts : ts ≠ 0) : fed p c d ts = { c with lastTs := ts } := by
  rw [fed, sampled, if_neg fun hfollows => hfollows.2 h, if_pos hts]

theorem Ctx.Shows.first {c : Ctx} {w : Watch} (h : c.Shows w) (hempty : w.packets = [])
    (packet : Packet) (hts : packet.ts ≠ 0) :
    ({ c with lastTs := packet.ts } : Ctx).Shows { w with packets := [packet] } where
  pending := h.pending
  timed := fun _ hmem => List.mem_singleton.1 hmem ▸ hts
  lastTs := rfl
  bytes := by
    show c.bytes = _
    rw [h.bytes, Watch.total, Watch.total, hempty]
    rfl
  replies := by
    show c.replies = _
    rw [h.replies, Watch.samples, Watch.samples, hempty]
    rfl
  timeouts := h.timeouts
  dups := h.dups
  countLat := h.countLat
  maxLat := h.maxLat
  minLat := h.minLat

theorem Ctx.Shows.next {p : Platform} {c : Ctx} {w : Watch} (h : c.Shows w) {before : Packet}
    {rest : List Packet} (hpackets : w.packets = before :: rest) {d : List UInt8} {ts : UInt64}
    (hts : ts ≠ 0) :
    (fed p c d ts).Shows
      { packets := ⟨d.length, ts⟩ :: w.packets
        pending := w.pending.push
          { type := .bwSample
            seq := UInt32.ofNat w.total
            latencyMs := UInt32.ofNat
              (d.length * 1000 % p.sizeMod / Watch.elapsed before.ts ts) } } := by
  have hlast : c.lastTs = before.ts := by
    rw [h.lastTs, hpackets]
    rfl
  have hbefore : before.ts ≠ 0 := h.timed before (hpackets ▸ List.mem_cons_self)
  -- A packet was seen before, so that this one makes a sample.
  have hfollows : c.Follows ts := ⟨hts, hlast ▸ hbefore⟩
  have hsample : sampleEvent p c d ts =
      { type := .bwSample
        seq := UInt32.ofNat w.total
        latencyMs := UInt32.ofNat
          (d.length * 1000 % p.sizeMod / Watch.elapsed before.ts ts) } := by
    rw [sampleEvent, toNat_gap_eq, hlast, h.bytes]
  rw [fed, sampled, if_pos hfollows, if_pos hts]
  exact
    { pending := by rw [← hsample, ← h.pending]; exact c.buffer_push _
      timed := List.forall_mem_cons.2 ⟨hts, h.timed⟩
      lastTs := rfl
      bytes := by
        show c.bytes + UInt32.ofNat d.length = _
        -- The packet that was seen first is remembered, but it makes no sample.
        rw [h.bytes, Watch.total, Watch.total, hpackets, List.dropLast_cons_cons, List.map_cons,
          List.sum_cons, Nat.add_comm, UInt32.ofNat_add]
      replies := by
        show c.replies + 1 = _
        rw [h.replies, Watch.samples, Watch.samples, hpackets]
        exact (UInt32.ofNat_add _ 1).symm
      timeouts := h.timeouts
      dups := h.dups
      countLat := h.countLat
      maxLat := h.maxLat
      minLat := h.minLat }

/-- Context and watch after a call. -/
def Together (ctx : Option Ctx) (w : Watch) : Prop :=
  ∃ c, ctx = some c ∧ c.Shows w

/-- The step lemma for packets. -/
theorem Ctx.Shows.feed {c : Ctx} {w : Watch} (h : c.Shows w) (p : Platform)
    (d : Option (List UInt8)) (ts : UInt64) :
    RelOk (fun x y => Together x.2 y.1 ∧ Result.code x.1 = y.2)
      (feedInputWithTs p (some c) d ts) (w.feed p d ts) := by
  cases d with
  | none => exact .ok ⟨⟨c, rfl, h⟩, rfl⟩
  | some d =>
      rw [Watch.feed]
      by_cases hempty : d = []
      · rw [if_pos hempty, feedInputWithTs, if_pos (List.length_eq_zero_iff.2 hempty)]
        exact .ok ⟨⟨c, rfl, h⟩, rfl⟩
      have hlen : 0 < d.length := List.length_pos_iff.2 hempty
      rw [if_neg hempty]
      -- A packet without a time is not remembered.
      by_cases hts : ts = 0
      · subst hts
        rw [if_pos rfl, feed_eq hlen fun hfollows => absurd rfl hfollows.1, fed_untimed]
        exact .ok ⟨⟨c, rfl, h⟩, rfl⟩
      rw [if_neg hts, Watch.take]
      cases hpackets : w.packets with
      | nil =>
          have hlast : c.lastTs = 0 := by
            rw [h.lastTs, hpackets]
            rfl
          rw [feed_eq hlen fun hfollows => absurd hlast hfollows.2, fed_first hlast hts]
          exact .ok ⟨⟨_, rfl, h.first hpackets ⟨d.length, ts⟩ hts⟩, rfl⟩
      | cons before rest =>
          have hlast : c.lastTs = before.ts := by
            rw [h.lastTs, hpackets]
            rfl
          have hfollows : c.Follows ts :=
            ⟨hts, hlast ▸ h.timed before (hpackets ▸ List.mem_cons_self)⟩
          -- The source divides by a gap of 32 bits, and traps if this is zero.
          have hgap : c.gap ts = 0 ↔ Watch.elapsed before.ts ts = 0 := by
            rw [← hlast, ← toNat_gap_eq]
            exact (@UInt32.toNat_inj (c.gap ts) 0).symm
          dsimp only
          split_ifs with helapsed
          · rw [feed_traps hlen hfollows (hgap.2 helapsed)]
            exact .error _
          · rw [feed_eq hlen fun _ => mt hgap.1 helapsed]
            exact .ok ⟨⟨_, rfl, hpackets ▸ h.next hpackets hts⟩, rfl⟩

/-- The step lemma: a context and a watch that agree do so after every call, and the call returns
the same. -/
theorem step_together (p : Platform) (ctx : Option Ctx) (w : Watch) (call : Call)
    (h : Together ctx w) :
    RelOk (fun x y => Together x.1 y.1 ∧ x.2 = y.2) (step p ctx call) (w.step p call) := by
  rcases h with ⟨c, rfl, h⟩
  have hfeed : ∀ d ts, RelOk (fun x y => Together x.1 y.1 ∧ x.2 = y.2)
      (feedInputWithTs p (some c) d ts >>= fun x => .ok (x.2, Result.code x.1)) (w.feed p d ts) :=
    fun d ts => (h.feed p d ts).map_left fun x y hxy => hxy
  cases call with
  | feedInput d => exact hfeed d 0
  | feedInputWithTs d ts => exact hfeed d ts
  | process ts => exact .ok ⟨⟨c, rfl, h⟩, rfl⟩
  | nextEvent e =>
      cases e with
      | none => exact .ok ⟨⟨c, rfl, h⟩, rfl⟩
      | some e =>
          rcases QueueCtx.pop_of_buffer h.pending e with ⟨hcode, hbuffer, hevent⟩
          refine .ok ⟨⟨_, rfl, { h with pending := hbuffer }⟩, ?_⟩
          rw [← hcode, ← hevent]
          rfl
  | getStats s =>
      cases s with
      | none => exact .ok ⟨⟨c, rfl, h⟩, rfl⟩
      | some s => exact .ok ⟨⟨c, rfl, h⟩, by rw [← h.stats]; rfl⟩
  | reset =>
      refine .ok ⟨⟨_, rfl, ?_⟩, rfl⟩
      -- All is forgotten but the role and the size of the queue.
      have hnew := shows_new c.role c.ring.1 c.qsz
      refine { hnew with pending := ?_ }
      rw [← h.pending]
      exact c.toQueueCtx.buffer_reset 8 Probe.dfltProbeQsz_pos c.role

/-- No caller can tell the module from a watch: for contexts of any size and role, any calls give
the same results, and trap at the same call if they do. -/
theorem bwdiag_is_watch (p : Platform) (role : Role) (config : Option Config)
    (calls : List Call) :
    observe (step p) (some (createWithConfig role config)) calls =
      observe (Watch.step p) (.new (config.elim 8 Config.eventQueueSize)) calls := by
  refine observe_eq_of_bisim (R := Together) (step_together p) ⟨_, rfl, ?_⟩ calls
  cases config with
  | none => exact shows_new role _ 8
  | some config => exact shows_new role _ config.eventQueueSize

end Bwdiag
end Netdiag
