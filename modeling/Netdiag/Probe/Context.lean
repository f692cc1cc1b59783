import Netdiag.Machine
import Netdiag.Queue

/-!
# Context — events, statistics and contexts of the probe modules

The public records of `netdiag.h`, and what the contexts of ping, arping, traceroute, dnsdiag and
arprecon have in common: the event queue, the time and the state of the last probe, and the
counters.  The five files contain the same statements for a reply, a request and a timeout; each
stands here once.
-/

namespace Netdiag
namespace Probe

open Lib

/-! ## Public records -/

/-- `netdiag_role_t`. -/
inductive Role
  | requester
  | responder
  deriving DecidableEq, Repr

structure Config where
  eventQueueSize : Nat

/-- `netdiag_event_type_t`. -/
inductive EventType
  | none
  | pingReply
  | pingTimeout
  | arpReply
  | arpDuplicate
  | faultDetected
  | tracerouteHop
  | dnsReply
  | arpAnomaly
  | arpSpoof
  | dnsSpoof
  | bwSample
  deriving DecidableEq, Repr

/-- `netdiag_event_t`.  The defaults are the zeros of members that an initializer leaves out. -/
structure Event where
  type : EventType := .none
  seq : UInt32 := 0
  latencyMs : UInt32 := 0
  srcMac : Vector UInt8 6 := Vector.replicate 6 0
  dstMac : Vector UInt8 6 := Vector.replicate 6 0
  srcIp : UInt32 := 0
  dstIp : UInt32 := 0
  reason : String := ""
  flags : UInt32 := 0
  deriving DecidableEq, Repr

/-- `netdiag_stats_t`. -/
structure Stats where
  replies : UInt32
  timeouts : UInt32
  duplicates : UInt32
  lossPct : UInt32
  avgLatencyMs : UInt32
  maxLatencyMs : UInt32
  minLatencyMs : UInt32
  deriving DecidableEq, Repr

/-! ## Contexts -/

/-- The size that the modules take for a size of `0` holds an event. -/
theorem dfltProbeQsz_pos : 0 < 8 := by decide

/-- A context; `own` holds the fields that only its module has. -/
structure Ctx (X : Type) extends QueueCtx Role Event where
  sendTs : UInt64
  waiting : Bool
  replies : UInt32
  timeouts : UInt32
  dups : UInt32
  sumLat : UInt32
  maxLat : UInt32
  minLat : UInt32
  countLat : UInt32
  own : X

namespace Ctx

variable {X : Type}

/-- `qinit`, as far as the modules agree on it.  The time of the last probe is not touched. -/
def init (role : Role) (r : RawRing Event maxQ) (sendTs : UInt64) (own : X) (s : Nat) : Ctx X :=
  { QueueCtx.init 8 dfltProbeQsz_pos role r s with
      sendTs := sendTs
      waiting := false
      replies := 0
      timeouts := 0
      dups := 0
      sumLat := 0
      maxLat := 0
      minLat := 0xFFFFFFFF
      countLat := 0
      own := own }

/-- `qpush`, whose result no caller looks at. -/
def qpush (c : Ctx X) (e : Event) : Ctx X :=
  { c with toQueueCtx := (c.push e).1 }

/-- The latency of a reply that comes in at `ts`; a time of `0` is no time. -/
def latency (c : Ctx X) (ts : UInt64) : UInt32 :=
  if c.sendTs ≠ 0 ∧ ts ≠ 0 then
    if ts > c.sendTs then (ts - c.sendTs).toUInt32 else 0
  else 5

/-- What the modules do with a reply: queue its event and count it. -/
def reply (c : Ctx X) (ev : Event) (ts : UInt64) : Ctx X :=
  let lat := c.latency ts
  { c.qpush { ev with latencyMs := lat } with
      replies := c.replies + 1
      sumLat := c.sumLat + lat
      countLat := c.countLat + 1
      maxLat := if lat > c.maxLat then lat else c.maxLat
      minLat := if lat < c.minLat then lat else c.minLat
      waiting := false }

/-- `if (ts) c->send_ts = ts`. -/
def stamp (c : Ctx X) (ts : UInt64) : Ctx X :=
  { c with sendTs := if ts ≠ 0 then ts else c.sendTs }

/-- What the modules do with a request. -/
def request (c : Ctx X) (ts : UInt64) : Ctx X :=
  { c.stamp ts with waiting := true }

/-- A probe is waiting and its time is up; the sum is one of 64-bit numbers. -/
def Expired (c : Ctx X) (ts : UInt64) : Prop :=
  c.waiting = true ∧ c.sendTs ≠ 0 ∧ ts > c.sendTs + 1000

instance (c : Ctx X) (ts : UInt64) : Decidable (c.Expired ts) :=
  inferInstanceAs (Decidable (_ ∧ _))

/-- What the modules do with a probe that fails. -/
def timeout (c : Ctx X) (ev : Event) : Ctx X :=
  { c.qpush ev with
      timeouts := c.timeouts + 1
      waiting := false }

/-- `*_get_stats`, without the loss percentage. -/
def stats (c : Ctx X) (lossPct : UInt32) : Stats where
  replies := c.replies
  timeouts := c.timeouts
  duplicates := c.dups
  lossPct := lossPct
  avgLatencyMs := if c.countLat ≠ 0 then c.sumLat / c.countLat else 0
  maxLatencyMs := c.maxLat
  minLatencyMs := if c.minLat = 0xFFFFFFFF then 0 else c.minLat

/-- The loss percentage of ping, arping and arprecon. -/
def lossPct (c : Ctx X) : UInt32 :=
  if c.replies + c.timeouts ≠ 0 then (c.timeouts * 100) / (c.replies + c.timeouts) else 0

end Ctx
end Probe
end Netdiag
