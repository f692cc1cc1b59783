import Netdiag.Machine
import Netdiag.Queue

/-!
# Event — conntrack events and their context

The public record `nfct_event_t`, the context `struct nfct_ctx`, and the functions that create,
reset and read out a context.
-/

namespace Netdiag
namespace Nfct

open Lib

/-! ## Events -/

inductive EventType
  | eventNone
  | eventNew
  | eventUpdate
  | eventDestroy
  | eventError
  | eventPartial
  deriving DecidableEq, Repr

/-- `nfct_event_t`.  The defaults are the values that `memset(&ev, 0, sizeof(ev))` leaves. -/
structure Event where
  type : EventType := .eventNone
  protocol : UInt8 := 0
  lanSrcIp : UInt32 := 0
  lanSrcPort : UInt16 := 0
  lanDstIp : UInt32 := 0
  lanDstPort : UInt16 := 0
  wanSrcIp : UInt32 := 0
  wanSrcPort : UInt16 := 0
  wanDstIp : UInt32 := 0
  wanDstPort : UInt16 := 0
  lanSrcIp6 : Vector UInt8 16 := Vector.replicate 16 0
  lanDstIp6 : Vector UInt8 16 := Vector.replicate 16 0
  wanSrcIp6 : Vector UInt8 16 := Vector.replicate 16 0
  wanDstIp6 : Vector UInt8 16 := Vector.replicate 16 0
  mark : UInt64 := 0
  zone : UInt32 := 0
  id : UInt32 := 0
  status : UInt32 := 0
  hasLan : Bool := false
  hasWan : Bool := false
  hasId : Bool := false
  hasStatus : Bool := false
  isIpv6 : Bool := false
  isDestroy : Bool := false
  reason : String := ""
  deriving DecidableEq, Repr

/-! ## Contexts -/

inductive Role
  | collector
  deriving DecidableEq, Repr

structure Config where
  eventQueueSize : Nat

/-- `struct nfct_ctx`. -/
abbrev Ctx : Type := QueueCtx Role Event

abbrev qinit (role : Role) (r : RawRing Event maxQ) (s : Nat) : Ctx :=
  QueueCtx.init 16 dfltQsz_pos role r s

abbrev qpush (c : Ctx) (e : Event) : Ctx × Int :=
  c.push e

abbrev qpop (c : Ctx) (e : Event) : Int × Ctx × Event :=
  c.pop e

def createWithConfig (role : Role) (config : Option Config) : Ctx :=
  qinit role (RawRing.calloc {}) (match config with
    | some config => config.eventQueueSize
    | none => 16)

def create (role : Role) : Ctx :=
  createWithConfig role none

theorem queued_createWithConfig (role : Role) (config : Option Config) :
    (createWithConfig role config).queued = [] :=
  QueueCtx.queued_init 16 dfltQsz_pos _ _ _

def reset (ctx : Option Ctx) : Option Ctx :=
  ctx.map fun c => qinit c.role c.ring.1 c.qsz

abbrev nextEvent (ctx : Option Ctx) (event : Option Event) : Int × Option Ctx × Option Event :=
  QueueCtx.next ctx event

/-! ## The forensics tuple -/

/-- What the output pointers of an extractor point to, `none` for `NULL`. -/
structure TupleOut (A : Type) where
  lanSrc : Option A
  lanSrcPort : Option UInt16
  wanSrc : Option A
  wanSrcPort : Option UInt16
  protocol : Option UInt8

/-- `if (p) *p = v;` -/
def store {A : Type} (p : Option A) (v : A) : Option A :=
  p.map fun _ => v

def eventForensicsTuple (ev : Option Event) (out : TupleOut UInt32) : Int × TupleOut UInt32 :=
  match ev with
  | none => (-1, out)
  | some ev =>
      if ev.isIpv6 then
        (0, out)
      else
        (if ev.hasLan ∧ ev.protocol ≠ 0 then 1 else 0,
          { lanSrc := store out.lanSrc ev.lanSrcIp
            lanSrcPort := store out.lanSrcPort ev.lanSrcPort
            wanSrc := store out.wanSrc ev.wanSrcIp
            wanSrcPort := store out.wanSrcPort ev.wanSrcPort
            protocol := store out.protocol ev.protocol })

def eventForensicsTupleV6 (ev : Option Event) (out : TupleOut (Vector UInt8 16)) :
    Int × TupleOut (Vector UInt8 16) :=
  match ev with
  | none => (-1, out)
  | some ev =>
      if !ev.isIpv6 then
        (0, out)
      else
        (if ev.hasLan ∧ ev.protocol ≠ 0 then 1 else 0,
          { lanSrc := store out.lanSrc ev.lanSrcIp6
            lanSrcPort := store out.lanSrcPort ev.lanSrcPort
            wanSrc := store out.wanSrc ev.wanSrcIp6
            wanSrcPort := store out.wanSrcPort ev.wanSrcPort
            protocol := store out.protocol ev.protocol })

end Nfct
end Netdiag
