import Netdiag.Probe.Coupling

/-!
# Ping — the ICMP echo module

`src/ping.c`: a requester takes echo replies, a responder keeps the last echo request and times
it out.
-/

namespace Netdiag
namespace Ping

open Lib
open Probe (Role Event EventType)

/-- The fields of `struct ping_ctx` that the other modules do not have. -/
structure Own where
  lastSeq : UInt32
  deriving DecidableEq, Repr

abbrev Ctx : Type := Probe.Ctx Own

/-- `ping_feed_input_with_ts`, behind its checks. -/
def feedBody (c : Ctx) (d : List UInt8) (ts : UInt64) : Except Fault Ctx := do
  let type ← rd d 0
  if (type = 0 ∨ type = 129) ∧ c.role = .requester then
    let seq ← rd16Be d 6
    return c.reply { type := .pingReply, seq := seq.toUInt32 } ts
  else if (type = 8 ∨ type = 128) ∧ c.role = .responder then
    let seq ← rd16Be d 6
    return { c.request ts with own := { lastSeq := seq.toUInt32 } }
  else
    return c

def timeoutEvent (c : Ctx) : Event :=
  { type := .pingTimeout, seq := c.own.lastSeq, reason := "timeout" }

/-- `ping_process`. -/
def processBody (c : Ctx) (ts : UInt64) : Ctx :=
  if c.Expired ts then c.timeout (timeoutEvent c) else c

def ping : Probe.Module Own where
  calloc := { lastSeq := 0 }
  clear := id
  minLen := 8
  body := feedBody
  tick := processBody
  lossPct := Probe.Ctx.lossPct

abbrev createWithConfig := ping.createWithConfig
abbrev create := ping.create
abbrev reset := ping.reset
abbrev feedInput := ping.feedInput
abbrev feedInputWithTs := ping.feedInputWithTs
abbrev process := ping.process
abbrev nextEvent : Option Ctx → Option Event → Int × Option Ctx × Option Event :=
  Probe.Ctx.nextEvent
abbrev getStats := ping.getStats

/-! ## What the calls look at -/

/-- The sequence number is read only where a probe waits. -/
def SameProbe (role : Role) (waiting : Bool) (x y : UInt64 × Own) : Prop :=
  Probe.SameClock role x.1 y.1 ∧ (waiting = true → x.2 = y.2)

theorem feedBody_coupled {a b : Ctx} (h : Probe.Alike SameProbe a b) (d : List UInt8)
    (ts : UInt64) :
    RelOk (Probe.Coupled SameProbe 1 a b) (feedBody a d ts) (feedBody b d ts) := by
  have hclock := h.rest.1
  refine RelOk.bind_same _ fun type => ?_
  simp only [← h.role]
  split_ifs with hreply hrequest
  · refine RelOk.bind_same _ fun seq => ?_
    exact .ok (h.reply _ (hclock.latency hreply.2 ts) ⟨hclock, fun hw => by cases hw⟩)
  · refine RelOk.bind_same _ fun seq => ?_
    exact .ok ((h.request ⟨hclock.stamp ts, fun _ => rfl⟩).mono (Nat.zero_le 1))
  · exact .ok (h.coupled 1)

theorem processBody_coupled {a b : Ctx} (h : Probe.Alike SameProbe a b) (ts : UInt64) :
    Probe.Coupled SameProbe 1 a b (processBody a ts) (processBody b ts) := by
  refine h.expire (fun _ => h.rest.1.2) fun hwaiting => ?_
  have hown : a.own = b.own := h.rest.2 hwaiting
  -- Nothing waits afterwards, and the sequence number is not read until something does.
  exact ⟨by rw [timeoutEvent, timeoutEvent, hown], h.rest.1, fun hw => by cases hw⟩

def coupling : Probe.Coupling ping where
  P := SameProbe
  bound := 1
  refl := fun role _ _ => ⟨.refl role _, fun _ => rfl⟩
  body := fun _ ts h => feedBody_coupled h _ ts
  tick := fun ts h => processBody_coupled h ts
  clear := fun h => ⟨h.1, fun hw => by cases hw⟩
  lossPct := fun h => h.lossPct

end Ping
end Netdiag
