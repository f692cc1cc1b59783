import Netdiag.Machine
import Netdiag.Queue

/-!
# Event — station events and their context

The public record `nl80211_event_t`, the context `struct nl80211_parse_ctx`, and the functions
that create, reset and read out a context.
-/

namespace Netdiag
namespace Nl80211

open Lib

/-! ## Events -/

inductive EventType
  | eventNone
  | eventStation
  | eventSurvey
  | eventError
  deriving DecidableEq, Repr

/-- `nl80211_event_t`.  The defaults are the values that `memset(&ev, 0, sizeof(ev))` leaves. -/
structure Event where
  type : EventType := .eventNone
  clientMac : Vector UInt8 6 := Vector.replicate 6 0
  signalDbm : Int32 := 0
  signalAvgDbm : Int32 := 0
  txRetries : UInt32 := 0
  txFailed : UInt32 := 0
  rxBytes : UInt32 := 0
  txBytes : UInt32 := 0
  mcsIndex : UInt8 := 0
  snrDb : Int8 := 0
  frequencyMhz : UInt32 := 0
  hasMac : Bool := false
  hasSignal : Bool := false
  hasMcs : Bool := false
  reason : String := ""
  deriving DecidableEq, Repr

/-! ## Contexts -/

inductive Role
  | collector
  deriving DecidableEq, Repr

structure Config where
  eventQueueSize : Nat

/-- `struct nl80211_parse_ctx`. -/
abbrev Ctx : Type := QueueCtx Role Event

abbrev qinit (role : Role) (r : RawRing Event maxQ) (s : Nat) : Ctx :=
  QueueCtx.init 16 dfltQsz_pos role r s

abbrev qpush (c : Ctx) (e : Event) : Ctx × Int :=
  c.push e

abbrev qpop (c : Ctx) (e : Event) : Int × Ctx × Event :=
  c.pop e

def parseCreateWithConfig (role : Role) (config : Option Config) : Ctx :=
  qinit role (RawRing.calloc {}) (match config with
    | some config => config.eventQueueSize
    | none => 16)

def parseCreate (role : Role) : Ctx :=
  parseCreateWithConfig role none

def parseReset (ctx : Option Ctx) : Option Ctx :=
  ctx.map fun c => qinit c.role c.ring.1 c.qsz

abbrev parseNextEvent (ctx : Option Ctx) (event : Option Event) :
    Int × Option Ctx × Option Event :=
  QueueCtx.next ctx event

end Nl80211
end Netdiag
