import Netdiag.Probe.Coupling

/-!
# Traceroute — the hop module

`src/traceroute.c`: a requester takes ICMP errors, a responder keeps the last probe and times it
out.  Both also count for each hop.
-/

namespace Netdiag
namespace Traceroute

open Lib
open Probe (Role Event EventType)

abbrev maxHops : Nat := 32

/-- The fields of `struct traceroute_ctx` that the other modules do not have. -/
structure Own where
  lastSeq : UInt32
  hopReplies : Vector UInt32 maxHops
  hopTimeouts : Vector UInt32 maxHops
  hopSumLat : Vector UInt32 maxHops
  hopCount : Vector UInt32 maxHops
  deriving DecidableEq, Repr

abbrev Ctx : Type := Probe.Ctx Own

/-- What `qinit` does to the counters of the hops. -/
def Own.clearHops (o : Own) : Own :=
  { o with
      hopReplies := Vector.replicate maxHops 0
      hopTimeouts := Vector.replicate maxHops 0
      hopSumLat := Vector.replicate maxHops 0
      hopCount := Vector.replicate maxHops 0 }

/-- The assignments of `traceroute_record_hop` for a hop that there is. -/
def Own.recordHop (o : Own) (hop : Fin maxHops) (success : Bool) (latencyMs : UInt32) : Own :=
  if success then
    { o with
        hopReplies := o.hopReplies.set hop (o.hopReplies[hop] + 1)
        hopSumLat := o.hopSumLat.set hop (o.hopSumLat[hop] + latencyMs)
        hopCount := o.hopCount.set hop (o.hopCount[hop] + 1) }
  else
    { o with hopTimeouts := o.hopTimeouts.set hop (o.hopTimeouts[hop] + 1) }

/-- `traceroute_record_hop`; a hop that there is not is ignored. -/
def recordHop (ctx : Option Ctx) (hop : Int) (success : Int) (latencyMs : UInt32) : Option Ctx :=
  ctx.map fun c =>
    if h : hop < 0 ∨ hop ≥ maxHops then c
    else { c with own := c.own.recordHop ⟨hop.toNat, by grind⟩ (success ≠ 0) latencyMs }

/-- `traceroute_hop_loss_pct`. -/
def hopLossPct (ctx : Option Ctx) (hop : Int) : Int :=
  match ctx with
  | none => -1
  | some c =>
      if h : hop < 0 ∨ hop ≥ maxHops then -1
      else
        let hop : Fin maxHops := ⟨hop.toNat, by grind⟩
        let total := c.own.hopReplies[hop] + c.own.hopTimeouts[hop]
        if total ≠ 0 then ((c.own.hopTimeouts[hop] * 100) / total).toInt32.toInt else 0

/-- The slot that the probe with this sequence number counts for. -/
def hopOf (seq : UInt32) : Fin maxHops :=
  ⟨seq.toNat % maxHops, Nat.mod_lt _ (Nat.zero_lt_succ _)⟩

/-- `traceroute_feed_input_with_ts`, behind its checks. -/
def feedBody (c : Ctx) (d : List UInt8) (ts : UInt64) : Except Fault Ctx := do
  let c := c.stamp ts
  let icmpType ← rd d 20
  if (icmpType = 11 ∨ icmpType = 3) ∧ c.role = .requester then
    let lat := c.latency ts
    return { c.reply { type := .tracerouteHop, seq := c.own.lastSeq } ts with
      own := c.own.recordHop (hopOf c.own.lastSeq) true lat }
  else if icmpType = 8 ∧ c.role = .responder then
    let seq ← rd16Be d 28
    return { c.request ts with own := { c.own with lastSeq := seq.toUInt32 } }
  else
    return c

def timeoutEvent (c : Ctx) : Event :=
  { type := .tracerouteHop, seq := c.own.lastSeq, reason := "traceroute timeout" }

/-- `traceroute_process`. -/
def processBody (c : Ctx) (ts : UInt64) : Ctx :=
  if c.Expired ts then
    { c.timeout (timeoutEvent c) with
      own := c.own.recordHop (hopOf c.own.lastSeq) false 0 }
  else c

def traceroute : Probe.Module Own where
  calloc := Own.clearHops
    { lastSeq := 0
      hopReplies := Vector.replicate maxHops 0
      hopTimeouts := Vector.replicate maxHops 0
      hopSumLat := Vector.replicate maxHops 0
      hopCount := Vector.replicate maxHops 0 }
  clear := Own.clearHops
  minLen := 20
  body := feedBody
  tick := processBody
  lossPct := fun _ => 0
  aside c c' := ∃ hop success latencyMs, recordHop (some c) hop success latencyMs = some c'

abbrev createWithConfig := traceroute.createWithConfig
abbrev create := traceroute.create
abbrev reset := traceroute.reset
abbrev feedInput := traceroute.feedInput
abbrev feedInputWithTs := traceroute.feedInputWithTs
abbrev process := traceroute.process
abbrev nextEvent : Option Ctx → Option Event → Int × Option Ctx × Option Event :=
  Probe.Ctx.nextEvent
abbrev getStats := traceroute.getStats

/-! ## What the calls look at -/

@[simp] theorem lastSeq_recordHop (o : Own) (hop : Fin maxHops) (success : Bool)
    (latencyMs : UInt32) : (o.recordHop hop success latencyMs).lastSeq = o.lastSeq := by
  rw [Own.recordHop]
  split_ifs <;> rfl

/-- The sequence number is read by requesters and where a probe waits, and so is the time of the
last probe, but a requester reads the time only where the packet has set it. -/
def SameProbe (role : Role) (waiting : Bool) (x y : UInt64 × Own) : Prop :=
  (role = .responder ∨ waiting = true → Probe.SameTimer x.1 y.1) ∧
    (role = .requester ∨ waiting = true → x.2.lastSeq = y.2.lastSeq)

theorem sameProbe_stamp {role : Role} {waiting : Bool} {s t : UInt64} {o p : Own}
    (h : SameProbe role waiting (s, o) (t, p)) (ts : UInt64) :
    SameProbe role waiting (if ts ≠ 0 then ts else s, o) (if ts ≠ 0 then ts else t, p) := by
  by_cases hts : ts ≠ 0
  · simp only [if_pos hts]
    exact ⟨fun _ => .refl ts, h.2⟩
  · simp only [if_neg hts]
    exact h

theorem feedBody_coupled {a b : Ctx} (h : Probe.Alike SameProbe a b) (d : List UInt8)
    (ts : UInt64) :
    RelOk (Probe.Coupled SameProbe 1 a b) (feedBody a d ts) (feedBody b d ts) := by
  have hstamp : Probe.Coupled SameProbe 0 a b (a.stamp ts) (b.stamp ts) :=
    h.stamp (sameProbe_stamp h.rest ts)
  have hlat : (a.stamp ts).latency ts = (b.stamp ts).latency ts := by
    rw [Probe.latency_stamp, Probe.latency_stamp]
  have hrole : (a.stamp ts).role = (b.stamp ts).role := hstamp.2.role
  have hrest := hstamp.2.rest
  refine RelOk.bind_same _ fun icmpType => ?_
  simp only [← hrole]
  split_ifs with hreply hrequest
  · have hseq : (a.stamp ts).own.lastSeq = (b.stamp ts).own.lastSeq := hrest.2 (.inl hreply.2)
    rw [hlat, hseq]
    refine .ok (hstamp.trans (hstamp.2.reply _ hlat ⟨?_, ?_⟩))
    · rintro (hresponder | hwaiting)
      · exact hrest.1 (.inl hresponder)
      · cases hwaiting
    · intro _
      simp only [lastSeq_recordHop]
      exact hseq
  · -- The number that is kept is that of the packet, so the numbers of the past do not matter.
    refine RelOk.bind_same _ fun seq => ?_
    have htimer := (sameProbe_stamp hrest ts).1 (.inl hrequest.2)
    have hnew : SameProbe (a.stamp ts).role true
        (((a.stamp ts).stamp ts).sendTs, { (a.stamp ts).own with lastSeq := seq.toUInt32 })
        (((b.stamp ts).stamp ts).sendTs, { (b.stamp ts).own with lastSeq := seq.toUInt32 }) :=
      ⟨fun _ => htimer, fun _ => rfl⟩
    exact .ok ((hstamp.trans (hstamp.2.request hnew)).mono (Nat.zero_le 1))
  · exact .ok (hstamp.mono (Nat.zero_le 1))

theorem processBody_coupled {a b : Ctx} (h : Probe.Alike SameProbe a b) (ts : UInt64) :
    Probe.Coupled SameProbe 1 a b (processBody a ts) (processBody b ts) := by
  refine h.expire (fun hwaiting => h.rest.1 (.inr hwaiting)) fun hwaiting => ?_
  have hseq : a.own.lastSeq = b.own.lastSeq := h.rest.2 (.inr hwaiting)
  refine ⟨by rw [timeoutEvent, timeoutEvent, hseq], fun _ => h.rest.1 (.inr hwaiting), fun _ => ?_⟩
  simp only [lastSeq_recordHop]
  exact hseq

def coupling : Probe.Coupling traceroute where
  P := SameProbe
  bound := 1
  refl := fun _ _ _ => ⟨fun _ => .refl _, fun _ => rfl⟩
  body := fun _ ts h => feedBody_coupled h _ ts
  tick := fun ts h => processBody_coupled h ts
  clear := fun h => ⟨fun hw => h.1 (hw.imp_right fun hf => by cases hf),
    fun hw => h.2 (hw.imp_right fun hf => by cases hf)⟩
  lossPct := fun _ => rfl

end Traceroute
end Netdiag
