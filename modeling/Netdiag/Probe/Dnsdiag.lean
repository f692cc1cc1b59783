import Netdiag.Probe.Coupling

/-!
# Dnsdiag — the DNS module

`src/dnsdiag.c`: a requester takes DNS messages with an error code and DNS responses, a responder
keeps the identifier of the last message.  Nothing times out.
-/

namespace Netdiag
namespace Dnsdiag

open Lib
open Probe (Role Event EventType)

/-- The fields of `struct dnsdiag_ctx` that the other modules do not have. -/
structure Own where
  lastSeq : UInt32
  deriving DecidableEq, Repr

abbrev Ctx : Type := Probe.Ctx Own

def faultEvent (c : Ctx) (rcode : UInt16) : Event :=
  { type := .faultDetected, seq := c.own.lastSeq, reason := s!"DNS rcode={rcode}" }

/-- `dnsdiag_feed_input_with_ts`, behind its checks. -/
def feedBody (c : Ctx) (d : List UInt8) (ts : UInt64) : Except Fault Ctx := do
  let c := c.stamp ts
  let flags ← rd16Be d 2
  let rcode := flags &&& 0x000F
  if rcode ≠ 0 ∧ c.role = .requester then
    return c.timeout (faultEvent c rcode)
  else if flags &&& 0x8000 ≠ 0 ∧ c.role = .requester then
    return c.reply { type := .dnsReply, seq := c.own.lastSeq } ts
  else if c.role = .responder then
    let id ← rd16Be d 0
    return { c.request ts with own := { lastSeq := id.toUInt32 } }
  else
    return c

/-- `dnsdiag_process` does nothing. -/
def processBody (c : Ctx) (_ : UInt64) : Ctx := c

def dnsdiag : Probe.Module Own where
  calloc := { lastSeq := 0 }
  clear := id
  minLen := 12
  body := feedBody
  tick := processBody
  lossPct := fun _ => 0

abbrev createWithConfig := dnsdiag.createWithConfig
abbrev create := dnsdiag.create
abbrev reset := dnsdiag.reset
abbrev feedInput := dnsdiag.feedInput
abbrev feedInputWithTs := dnsdiag.feedInputWithTs
abbrev process := dnsdiag.process
abbrev nextEvent : Option Ctx → Option Event → Int × Option Ctx × Option Event :=
  Probe.Ctx.nextEvent
abbrev getStats := dnsdiag.getStats

/-! ## What the calls look at -/

/-- The identifier is read by requesters only, and the time of the last packet never outlives
the packet. -/
def SameProbe (role : Role) (_ : Bool) (x y : UInt64 × Own) : Prop :=
  role = .requester → x.2 = y.2

theorem feedBody_coupled {a b : Ctx} (h : Probe.Alike SameProbe a b) (d : List UInt8)
    (ts : UInt64) :
    RelOk (Probe.Coupled SameProbe 1 a b) (feedBody a d ts) (feedBody b d ts) := by
  have hstamp : Probe.Coupled SameProbe 0 a b (a.stamp ts) (b.stamp ts) := h.stamp h.rest
  have hlat : (a.stamp ts).latency ts = (b.stamp ts).latency ts := by
    rw [Probe.latency_stamp, Probe.latency_stamp]
  have hrole : (a.stamp ts).role = (b.stamp ts).role := hstamp.2.role
  refine RelOk.bind_same _ fun flags => ?_
  simp only [← hrole]
  -- A fault and a response read the identifier, and both are a requester's.
  split_ifs with hfault hreply hrequest
  · have hown : (a.stamp ts).own = (b.stamp ts).own := hstamp.2.rest hfault.2
    rw [faultEvent, faultEvent, hown]
    exact .ok (hstamp.trans (hstamp.2.timeout _ hstamp.2.rest))
  · have hown : (a.stamp ts).own = (b.stamp ts).own := hstamp.2.rest hreply.2
    rw [hown]
    exact .ok (hstamp.trans (hstamp.2.reply _ hlat hstamp.2.rest))
  · refine RelOk.bind_same _ fun id => ?_
    exact .ok ((hstamp.trans (hstamp.2.request fun _ => rfl)).mono (Nat.zero_le 1))
  · exact .ok (hstamp.mono (Nat.zero_le 1))

def coupling : Probe.Coupling dnsdiag where
  P := SameProbe
  bound := 1
  refl := fun _ _ _ _ => rfl
  body := fun _ ts h => feedBody_coupled h _ ts
  tick := fun _ h => h.coupled 1
  clear := fun h => h
  lossPct := fun _ => rfl

end Dnsdiag
end Netdiag
