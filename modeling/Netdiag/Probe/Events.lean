import Netdiag.Probe.Arping
import Netdiag.Probe.Dnsdiag
import Netdiag.Probe.Ping
import Netdiag.Probe.Traceroute

/-!
# Events — which event a call makes

What a call generates is what it leaves in a queue with room for all (`Module.generated`).  In
ping, arping, dnsdiag and traceroute this is one event at most, a function of the context and the
arguments of the call: `Ping.event` and its siblings say which.
-/

namespace Netdiag
namespace Probe

open Lib

variable {X : Type}

/-! ## What a call generates -/

/-- The context with an empty queue of 32 places. -/
def Ctx.roomy (c : Ctx X) : Ctx X :=
  { c with toQueueCtx := QueueCtx.init 8 dfltProbeQsz_pos c.role (RawRing.calloc {}) 32 }

/-- The events that a call generates: what it leaves in the queue if there is room for all. -/
def Module.generated (m : Module X) (c : Ctx X) (call : Call) : List Event :=
  match m.step (some c.roomy) call with
  | .ok (some c', _) => c'.queued
  | _ => []

/-- The event of each call, if it makes one; no call makes more. -/
def Module.Makes (m : Module X) (event : Ctx X → Call → Option Event) : Prop :=
  ∀ c call, m.generated c call = (event c call).toList

theorem queued_roomy (c : Ctx X) : c.roomy.queued = [] :=
  QueueCtx.queued_init _ _ _ _ _

theorem queued_roomy_pushAll (c : Ctx X) {es : List Event} (hlen : es.length ≤ 32) :
    (c.roomy.toQueueCtx.pushAll es).queued = es :=
  QueueCtx.queued_pushAll_of_nil (queued_roomy c) es hlen

/-- The rule for what a context holds after one event. -/
theorem queued_of_roomy {c c' : Ctx X} {e : Event}
    (h : c'.toQueueCtx = c.roomy.toQueueCtx.pushAll [e]) : c'.queued = [e] := by
  rw [h]
  exact queued_roomy_pushAll c (by decide : 1 ≤ 32)

variable {m : Module X}

theorem generated_nextEvent (c : Ctx X) (e : Event) :
    m.generated c (.nextEvent (some e)) = [] := by
  have hstep : m.step (some c.roomy) (.nextEvent (some e)) =
      .ok (some c.roomy, .event 0 (some e)) := by
    rw [Module.step, Ctx.nextEvent_of_pop (QueueCtx.pop_of_nil (queued_roomy c) e)]
    rfl
  rw [Module.generated, hstep]
  exact queued_roomy c

theorem generated_reset (c : Ctx X) : m.generated c .reset = [] :=
  QueueCtx.queued_init _ _ _ _ _

theorem Module.Makes.event_eq_none {event : Ctx X → Call → Option Event} (h : m.Makes event)
    {c : Ctx X} {call : Call} (hnothing : m.generated c call = []) : event c call = none := by
  rw [h] at hnothing
  exact Option.toList_eq_nil_iff.1 hnothing

/-! ## The event of a call -/

/-- The event of a call, from the events of a packet and of the time. -/
def Call.event (packet : List UInt8 → UInt64 → Option Event) (time : UInt64 → Option Event) :
    Call → Option Event
  | .feedInput (some d) => packet d 0
  | .feedInputWithTs (some d) ts => packet d ts
  | .process ts => time ts
  | _ => none

/-- The event of a probe that expires. -/
def Ctx.expiry (c : Ctx X) (ev : Event) (ts : UInt64) : Option Event :=
  if c.Expired ts then some ev else none

/-- What the part of a module that takes a packet leaves in the queue. -/
def heldAfter : Except Fault (Ctx X) → List Event
  | .ok c => c.queued
  | .error _ => []

theorem generated_of_feeds {c : Ctx X} {call : Call} {d : List UInt8} {ts : UInt64}
    (hcall : call.Feeds d ts) (hlen : m.minLen ≤ d.length) :
    m.generated c call = heldAfter (m.body c.roomy d ts) := by
  rw [Module.generated, Module.step_feed hcall, Module.feedInputWithTs_of_le hlen]
  cases m.body c.roomy d ts <;> rfl

theorem generated_of_short {c : Ctx X} {call : Call} {d : List UInt8} {ts : UInt64}
    (hcall : call.Feeds d ts) (hlen : d.length < m.minLen) : m.generated c call = [] := by
  rw [Module.generated, Module.step_feed hcall, Module.feedInputWithTs_of_short hlen]
  exact queued_roomy c

/-- The rule for a module: the event of a call from that of its two parts. -/
theorem makes_event (packet : Ctx X → List UInt8 → UInt64 → Option Event)
    (time : Ctx X → UInt64 → Option Event)
    (hpacket : ∀ c d ts, m.minLen ≤ d.length →
      heldAfter (m.body (Ctx.roomy c) d ts) = (packet c d ts).toList)
    (hshort : ∀ c d ts, d.length < m.minLen → packet c d ts = none)
    (htime : ∀ c ts, (m.tick (Ctx.roomy c) ts).queued = (time c ts).toList) :
    m.Makes fun c => Call.event (packet c) (time c) := by
  intro c call
  -- A packet that is too short for the module makes nothing, on either side.
  have hfed : ∀ {call : Call} {d ts}, call.Feeds d ts →
      m.generated c call = (packet c d ts).toList := by
    intro call d ts hcall
    by_cases hlen : m.minLen ≤ d.length
    · rw [generated_of_feeds hcall hlen]
      exact hpacket c d ts hlen
    · rw [generated_of_short hcall (Nat.lt_of_not_le hlen), hshort c d ts (Nat.lt_of_not_le hlen)]
      rfl
  cases call with
  | feedInput d =>
      cases d with
      | none => exact queued_roomy c
      | some d => exact hfed (.inr ⟨rfl, rfl⟩)
  | feedInputWithTs d ts =>
      cases d with
      | none => exact queued_roomy c
      | some d => exact hfed (.inl rfl)
  | process ts => exact htime c ts
  | nextEvent e =>
      cases e with
      | none => exact queued_roomy c
      | some e => exact generated_nextEvent c e
  | getStats s => exact queued_roomy c
  | reset => exact generated_reset c

/-- The rule for `*_process` of the modules with timers. -/
theorem queued_expire (c : Ctx X) (ts : UInt64) (ev : Event) (own : X) :
    (if c.roomy.Expired ts then { c.roomy.timeout ev with own := own } else c.roomy).queued =
      (c.expiry ev ts).toList := by
  have hsame : c.roomy.Expired ts ↔ c.Expired ts := Iff.rfl
  rw [Ctx.expiry]
  by_cases hexpired : c.Expired ts
  · rw [if_pos hexpired, if_pos (hsame.2 hexpired)]
    exact queued_of_roomy (c := c) rfl
  · rw [if_neg hexpired, if_neg (hsame.not.2 hexpired)]
    exact queued_roomy c

end Probe

/-! ## The modules -/

open Lib

namespace Ping

open Probe (Event Call heldAfter)

/-- An echo reply makes a requester's event. -/
def packetEvent (c : Ctx) (d : List UInt8) (ts : UInt64) : Option Event :=
  if 8 ≤ d.length ∧ (d.getD 0 0 = 0 ∨ d.getD 0 0 = 129) ∧ c.role = .requester then
    some { type := .pingReply, seq := (be16At d 6).toUInt32, latencyMs := c.latency ts }
  else none

def event (c : Ctx) : Call → Option Event :=
  Call.event (packetEvent c) (c.expiry (timeoutEvent c))

theorem heldAfter_feedBody (c : Ctx) {d : List UInt8} (hlen : 8 ≤ d.length) (ts : UInt64) :
    heldAfter (feedBody c.roomy d ts) = (packetEvent c d ts).toList := by
  have hrole : c.roomy.role = c.role := rfl
  rw [feedBody, packetEvent, rd_of_lt (by omega : 0 + 1 ≤ d.length),
    rd16Be_of_le (by omega : 6 + 2 ≤ d.length)]
  simp only [bind, Except.bind, pure, Except.pure, hlen, true_and, hrole]
  split_ifs with hreply hrequest
  · exact Probe.queued_of_roomy (c := c) rfl
  · exact Probe.queued_roomy c
  · exact Probe.queued_roomy c

theorem makes_event : ping.Makes event :=
  Probe.makes_event (m := ping) packetEvent (fun c => c.expiry (timeoutEvent c))
    (fun c _ ts hlen => heldAfter_feedBody c hlen ts)
    (fun _ _ _ hshort => if_neg fun h => Nat.not_le_of_lt hshort h.1)
    (fun c ts => Probe.queued_expire c ts (timeoutEvent c) c.own)

end Ping

namespace Dnsdiag

open Probe (Event Call heldAfter)

/-- A message with an error code and a response make a requester's events. -/
def packetEvent (c : Ctx) (d : List UInt8) (ts : UInt64) : Option Event :=
  if 12 ≤ d.length ∧ c.role = .requester then
    if be16At d 2 &&& 0x000F ≠ 0 then
      some (faultEvent c (be16At d 2 &&& 0x000F))
    else if be16At d 2 &&& 0x8000 ≠ 0 then
      some { type := .dnsReply, seq := c.own.lastSeq, latencyMs := (c.stamp ts).latency ts }
    else none
  else none

def event (c : Ctx) : Call → Option Event :=
  Call.event (packetEvent c) fun _ => none

theorem heldAfter_feedBody (c : Ctx) {d : List UInt8} (hlen : 12 ≤ d.length) (ts : UInt64) :
    heldAfter (feedBody c.roomy d ts) = (packetEvent c d ts).toList := by
  have hrole : (c.roomy.stamp ts).role = c.role := rfl
  rw [feedBody, packetEvent, rd16Be_of_le (by omega : 2 + 2 ≤ d.length),
    rd16Be_of_le (by omega : 0 + 2 ≤ d.length)]
  simp only [bind, Except.bind, pure, Except.pure, hlen, true_and, hrole]
  cases hr : c.role with
  | requester =>
      simp only [and_true, if_true, reduceCtorEq, if_false]
      split_ifs with hfault hreply
      · exact Probe.queued_of_roomy (c := c) rfl
      · exact Probe.queued_of_roomy (c := c) rfl
      · exact Probe.queued_roomy c
  | responder =>
      simp only [reduceCtorEq, and_false, if_false, if_true]
      exact Probe.queued_roomy c

theorem makes_event : dnsdiag.Makes event :=
  Probe.makes_event (m := dnsdiag) packetEvent (fun _ _ => none)
    (fun c _ ts hlen => heldAfter_feedBody c hlen ts)
    (fun _ _ _ hshort => if_neg fun h => Nat.not_le_of_lt hshort h.1)
    (fun c _ => Probe.queued_roomy c)

end Dnsdiag

namespace Traceroute

open Probe (Event Call heldAfter)

/-- An ICMP error makes a requester's event. -/
def packetEvent (c : Ctx) (d : List UInt8) (ts : UInt64) : Option Event :=
  if 21 ≤ d.length ∧ (d.getD 20 0 = 11 ∨ d.getD 20 0 = 3) ∧ c.role = .requester then
    some
      { type := .tracerouteHop, seq := c.own.lastSeq, latencyMs := (c.stamp ts).latency ts }
  else none

def event (c : Ctx) : Call → Option Event :=
  Call.event (packetEvent c) (c.expiry (timeoutEvent c))

theorem heldAfter_feedBody (c : Ctx) (d : List UInt8) (ts : UInt64) :
    heldAfter (feedBody c.roomy d ts) = (packetEvent c d ts).toList := by
  have hrole : (c.roomy.stamp ts).role = c.role := rfl
  rw [feedBody, packetEvent]
  by_cases hlen : 21 ≤ d.length
  · rw [rd_of_lt (by omega : 20 + 1 ≤ d.length)]
    simp only [bind, Except.bind, pure, Except.pure, hlen, true_and, hrole]
    split_ifs with hreply hrequest
    · exact Probe.queued_of_roomy (c := c) rfl
    · -- A responder keeps a probe, or reads beyond it.
      cases rd16Be d 28 with
      | ok seq => exact Probe.queued_roomy c
      | error e => rfl
    · exact Probe.queued_roomy c
  · rw [rd_of_le (by omega : d.length ≤ 20), if_neg fun h => hlen h.1]
    rfl

theorem makes_event : traceroute.Makes event :=
  Probe.makes_event (m := traceroute) packetEvent (fun c => c.expiry (timeoutEvent c))
    (fun c d ts _ => heldAfter_feedBody c d ts)
    (fun _ d _ (hshort : d.length < 20) => if_neg fun h => by omega)
    (fun c ts => Probe.queued_expire c ts (timeoutEvent c) _)

end Traceroute

namespace Arping

open Probe (Event Call heldAfter)

/-- An ARP reply, up to the sender's MAC, makes a requester's event. -/
def arpEvent (c : Ctx) (d : List UInt8) (ts : UInt64) : Option Event :=
  if 28 ≤ d.length ∧ d.getD 12 0 = 0x08 ∧ d.getD 13 0 = 0x06 ∧ d.getD 21 0 = 2 ∧
      c.role = .requester then
    some { type := .arpReply, srcMac := bytesOf 6 (d.drop 22), latencyMs := c.latency ts }
  else none

/-- So does a neighbour advertisement, unless it ends inside what is read as the MAC. -/
def ndpEvent (c : Ctx) (d : List UInt8) (ts : UInt64) : Option Event :=
  if 40 < d.length ∧ d.length ≠ 71 ∧ (d.getD 12 0 = 0x86 ∧ d.getD 13 0 = 0xdd) ∧
      d.getD 40 0 = 136 ∧ c.role = .requester then
    some
      { type := .arpReply
        srcMac := if d.length > 70 then bytesOf 6 (d.drop 66) else Vector.replicate 6 0
        latencyMs := c.latency ts }
  else none

def packetEvent (c : Ctx) (d : List UInt8) (ts : UInt64) : Option Event :=
  (arpEvent c d ts).or (ndpEvent c d ts)

def event (c : Ctx) : Call → Option Event :=
  Call.event (packetEvent c) (c.expiry timeoutEvent)

theorem heldAfter_arpPart (c : Ctx) (d : List UInt8) (ts : UInt64) :
    heldAfter (arpPart c.roomy d ts) = (arpEvent c d ts).toList := by
  have hrole : c.roomy.role = c.role := rfl
  rw [arpPart, arpEvent]
  by_cases hlen : d.length > 21
  · rw [if_pos hlen, rd_of_lt (by omega : 12 + 1 ≤ d.length),
      rd_of_lt (by omega : 13 + 1 ≤ d.length), rd_of_lt (by omega : 21 + 1 ≤ d.length)]
    simp only [bind, Except.bind, pure, Except.pure, hrole]
    by_cases hreply : d.getD 12 0 = 0x08 ∧ d.getD 13 0 = 0x06 ∧ d.getD 21 0 = 2 ∧
        c.role = .requester
    · simp only [hreply, and_self, and_true, if_true]
      by_cases hroom : 28 ≤ d.length
      · rw [memcpy_of_le hroom (by decide), if_pos hroom]
        exact Probe.queued_of_roomy (c := c) rfl
      · -- The source copies bytes from behind the frame.
        rw [memcpy, if_neg hroom, if_neg hroom]
        rfl
    · simp only [hreply, and_false, if_false]
      split_ifs <;> exact Probe.queued_roomy c
  · rw [if_neg hlen, if_neg fun h => by omega]
    exact Probe.queued_roomy c

theorem heldAfter_ndpPart (c : Ctx) (d : List UInt8) (ts : UInt64) :
    heldAfter (ndpPart c.roomy d ts) = (ndpEvent c d ts).toList := by
  have hrole : c.roomy.role = c.role := rfl
  rw [ndpPart, ndpEvent]
  by_cases hlen : d.length > 40
  · rw [if_pos hlen, rd_of_lt (by omega : 12 + 1 ≤ d.length),
      rd_of_lt (by omega : 13 + 1 ≤ d.length), rd_of_lt (by omega : 40 + 1 ≤ d.length)]
    simp only [bind, Except.bind, pure, Except.pure, hrole, gt_iff_lt.1 hlen, true_and]
    by_cases htype : d.getD 12 0 = 0x86 ∧ d.getD 13 0 = 0xdd
    · by_cases hreply : d.getD 40 0 = 136 ∧ c.role = .requester
      · simp only [htype, hreply, and_self, and_true, if_true]
        -- The source reads six bytes where it has made sure of five.
        by_cases hmac : d.length > 70
        · by_cases hroom : 66 + 6 ≤ d.length
          · rw [if_pos hmac, if_pos hmac, if_pos (by omega : d.length ≠ 71),
              memcpy_of_le hroom (by decide)]
            exact Probe.queued_of_roomy (c := c) rfl
          · rw [if_pos hmac, if_neg (by omega : ¬ d.length ≠ 71), memcpy, if_neg hroom]
            rfl
        · rw [if_neg hmac, if_neg hmac, if_pos (by omega : d.length ≠ 71)]
          exact Probe.queued_of_roomy (c := c) rfl
      · simp only [htype, hreply, and_self, and_false, if_true, if_false]
        split_ifs <;> exact Probe.queued_roomy c
    · simp only [htype, false_and, and_false, if_false]
      exact Probe.queued_roomy c
  · rw [if_neg hlen, if_neg fun h => hlen h.1]
    exact Probe.queued_roomy c

theorem heldAfter_feedBody (c : Ctx) {d : List UInt8} (hlen : 14 ≤ d.length) (ts : UInt64) :
    heldAfter (feedBody c.roomy d ts) = (packetEvent c d ts).toList := by
  rw [feedBody, packetEvent]
  by_cases htype : d.getD 12 0 = 0x08
  · -- An ARP frame is not one of IPv6.
    have hnone : ndpEvent c d ts = none := by
      refine if_neg fun h => ?_
      cases htype.symm.trans h.2.2.1.1
    have hsame : (fun c => ndpPart c d ts) = fun c => .ok c :=
      funext fun c => ndpPart_of_arp hlen htype c ts
    rw [hnone, Option.or_none, hsame, ← heldAfter_arpPart]
    cases arpPart c.roomy d ts <;> rfl
  · have hnone : arpEvent c d ts = none := if_neg fun h => htype h.2.1
    rw [hnone, Option.none_or, arpPart_of_not_arp hlen htype, ← heldAfter_ndpPart]
    rfl

theorem makes_event : arping.Makes event :=
  Probe.makes_event (m := arping) packetEvent (fun c => c.expiry timeoutEvent)
    (fun c _ ts hlen => heldAfter_feedBody c hlen ts)
    (fun c d ts (hshort : d.length < 14) => by
      have harp : arpEvent c d ts = none := if_neg fun h => by omega
      have hndp : ndpEvent c d ts = none := if_neg fun h => by omega
      rw [packetEvent, harp, hndp]
      rfl)
    (fun c ts => Probe.queued_expire c ts timeoutEvent c.own)

end Arping
end Netdiag
