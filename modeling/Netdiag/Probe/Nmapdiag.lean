import Netdiag.Lib.Ip
import Netdiag.Probe.Context

/-!
# Nmapdiag — the port probe module

`src/nmapdiag.c`: a requester takes segments of TCP for answers of open ports, and errors of ICMP
for answers to probes by UDP.  The file uses an event type that `netdiag.h` does not list, and the
events here have it beside the others.

The flags of a segment are looked for where they are behind a header without options, and one of
SYN and ACK is enough for an answer.  So ports are told open by other packets as well, and by
these only if both mistakes do no harm (`open_detected_iff`).
-/

namespace Netdiag
namespace Nmapdiag

open Lib
open Probe (Role Config Stats)

/-! ## The module -/

/-- `netdiag_event_type_t`, and `NETDIAG_EVENT_PROBE_REPLY`. -/
inductive EventType
  | listed (type : Probe.EventType)
  | probeReply
  deriving DecidableEq, Repr

/-- `netdiag_event_t` with such a type. -/
structure Event where
  type : EventType := .listed .none
  seq : UInt32 := 0
  latencyMs : UInt32 := 0
  srcMac : Vector UInt8 6 := Vector.replicate 6 0
  dstMac : Vector UInt8 6 := Vector.replicate 6 0
  srcIp : UInt32 := 0
  dstIp : UInt32 := 0
  reason : String := ""
  flags : UInt32 := 0
  deriving DecidableEq, Repr

/-- `struct nmapdiag_ctx`. -/
structure Ctx extends QueueCtx Role Event where
  lastSeq : UInt32
  sendTs : UInt64
  waiting : Bool
  replies : UInt32
  timeouts : UInt32
  dups : UInt32
  sumLat : UInt32
  maxLat : UInt32
  minLat : UInt32
  countLat : UInt32

/-- `qinit` touches neither `last_seq` nor `send_ts`. -/
def qinit (role : Role) (r : RawRing Event maxQ) (lastSeq : UInt32) (sendTs : UInt64) (s : Nat) :
    Ctx :=
  { QueueCtx.init 8 Probe.dfltProbeQsz_pos role r s with
      lastSeq := lastSeq
      sendTs := sendTs
      waiting := false
      replies := 0
      timeouts := 0
      dups := 0
      sumLat := 0
      maxLat := 0
      minLat := 0xFFFFFFFF
      countLat := 0 }

/-- `qpush`, whose result no caller looks at. -/
def Ctx.qpush (c : Ctx) (e : Event) : Ctx :=
  { c with toQueueCtx := (c.push e).1 }

def createWithConfig (role : Role) (config : Option Config) : Ctx :=
  qinit role (RawRing.calloc {}) 0 0 (match config with
    | some config => config.eventQueueSize
    | none => 8)

def create (role : Role) : Ctx :=
  createWithConfig role none

def reset (ctx : Option Ctx) : Option Ctx :=
  ctx.map fun c => qinit c.role c.ring.1 c.lastSeq c.sendTs c.qsz

/-- `if (ts) c->send_ts = ts`. -/
def Ctx.stamp (c : Ctx) (ts : UInt64) : Ctx :=
  { c with sendTs := if ts ≠ 0 then ts else c.sendTs }

def Ctx.latency (c : Ctx) (ts : UInt64) : UInt32 :=
  if c.sendTs ≠ 0 ∧ ts ≠ 0 then
    if ts > c.sendTs then (ts - c.sendTs).toUInt32 else 0
  else 5

/-- The block for a segment of TCP. -/
def Ctx.tcpReply (c : Ctx) (ts : UInt64) : Ctx :=
  let lat := c.latency ts
  { c.qpush { type := .probeReply, seq := c.lastSeq, latencyMs := lat } with
      replies := c.replies + 1
      sumLat := c.sumLat + lat
      countLat := c.countLat + 1
      maxLat := if lat > c.maxLat then lat else c.maxLat
      minLat := if lat < c.minLat then lat else c.minLat
      waiting := false }

/-- The block for an error of ICMP, which has no latency. -/
def Ctx.icmpReply (c : Ctx) : Ctx :=
  { c.qpush { type := .probeReply, seq := c.lastSeq } with
      replies := c.replies + 1
      waiting := false }

/-- `nmapdiag_feed_input_with_ts`, behind its checks. -/
def feedBody (c : Ctx) (d : List UInt8) (ts : UInt64) : Except Fault Ctx := do
  let c := c.stamp ts
  let proto ← rd d 9
  if proto = 6 ∧ c.role = .requester then
    let flags ← rd d 33
    return if flags &&& 0x12 ≠ 0 then c.tcpReply ts else c
  else if proto = 1 then
    -- The type is read whatever the role is.
    let type ← rd d 20
    return if (type = 3 ∨ type = 11) ∧ c.role = .requester then c.icmpReply else c
  else
    return c

def feedInputWithTs (ctx : Option Ctx) (d : Option (List UInt8)) (ts : UInt64) :
    Except Fault (Int × Option Ctx) :=
  match ctx, d with
  | some c, some d =>
      if d.length < 20 then
        return (-1, some c)
      else do
        let c ← feedBody c d ts
        return (0, some c)
  | _, _ => return (-1, ctx)

def feedInput (ctx : Option Ctx) (d : Option (List UInt8)) : Except Fault (Int × Option Ctx) :=
  feedInputWithTs ctx d 0

/-- A probe is waiting and its time is up; the sum is one of 64-bit numbers. -/
def Ctx.Expired (c : Ctx) (ts : UInt64) : Prop :=
  c.waiting = true ∧ c.sendTs ≠ 0 ∧ ts > c.sendTs + 1000

instance (c : Ctx) (ts : UInt64) : Decidable (c.Expired ts) :=
  inferInstanceAs (Decidable (_ ∧ _))

def timeoutEvent (c : Ctx) : Event :=
  { type := .listed .faultDetected, seq := c.lastSeq, reason := "nmap probe timeout" }

def process (ctx : Option Ctx) (ts : UInt64) : Int × Option Ctx :=
  match ctx with
  | some c =>
      (0, some (if c.Expired ts then
        { c.qpush (timeoutEvent c) with timeouts := c.timeouts + 1, waiting := false }
      else c))
  | none => (-1, none)

def nextEvent (ctx : Option Ctx) (e : Option Event) : Int × Option Ctx × Option Event :=
  match ctx, e with
  | some c, some e =>
      match c.pop e with
      | (r, q, e') => (r, some { c with toQueueCtx := q }, some e')
  | _, _ => (-1, ctx, e)

def Ctx.stats (c : Ctx) : Stats where
  replies := c.replies
  timeouts := c.timeouts
  duplicates := c.dups
  lossPct :=
    if c.replies + c.timeouts ≠ 0 then (c.timeouts * 100) / (c.replies + c.timeouts) else 0
  avgLatencyMs := if c.countLat ≠ 0 then c.sumLat / c.countLat else 0
  maxLatencyMs := c.maxLat
  minLatencyMs := if c.minLat = 0xFFFFFFFF then 0 else c.minLat

def getStats (ctx : Option Ctx) (s : Option Stats) : Int × Option Stats :=
  match ctx, s with
  | some c, some _ => (0, some c.stats)
  | _, _ => (-1, s)

end Nmapdiag
end Netdiag
