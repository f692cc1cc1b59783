import Netdiag.Probe.Coupling

/-!
# Arping — the ARP and neighbour discovery module

`src/arping.c`: a requester takes ARP replies and neighbour advertisements, a responder keeps the
time of the last ARP request or neighbour solicitation.
-/

namespace Netdiag
namespace Arping

open Lib
open Probe (Role Event EventType)

/-- `last_mac` is cleared and never read, so no field is left that the other modules do not
have. -/
abbrev Ctx : Type := Probe.Ctx Unit

/-- The part for classic ARP.  The sender's address is copied if there is room for the opcode,
whether or not it is inside the frame. -/
def arpPart (c : Ctx) (d : List UInt8) (ts : UInt64) : Except Fault Ctx := do
  if d.length > 21 then
    let t₀ ← rd d 12
    let t₁ ← rd d 13
    let op ← rd d 21
    if t₀ = 0x08 ∧ t₁ = 0x06 ∧ op = 2 ∧ c.role = .requester then
      let mac ← memcpy d 22 6
      return c.reply { type := .arpReply, srcMac := mac } ts
    else if t₀ = 0x08 ∧ t₁ = 0x06 ∧ op = 1 ∧ c.role = .responder then
      return c.request ts
    else
      return c
  else
    return c

/-- The part for IPv6 neighbour discovery, with the offsets of the source. -/
def ndpPart (c : Ctx) (d : List UInt8) (ts : UInt64) : Except Fault Ctx := do
  if d.length > 40 then
    let t₀ ← rd d 12
    let t₁ ← rd d 13
    if t₀ = 0x86 ∧ t₁ = 0xdd then
      let icmp6Type ← rd d 40
      if icmp6Type = 136 ∧ c.role = .requester then
        let mac ← if d.length > 70 then memcpy d 66 6 else pure (Vector.replicate 6 0)
        return c.reply { type := .arpReply, srcMac := mac } ts
      else if icmp6Type = 135 ∧ c.role = .responder then
        return c.request ts
      else
        return c
    else
      return c
  else
    return c

/-- `arping_feed_input_with_ts`, behind its checks. -/
def feedBody (c : Ctx) (d : List UInt8) (ts : UInt64) : Except Fault Ctx := do
  let c ← arpPart c d ts
  ndpPart c d ts

/-- The event of a timeout: the module uses the type of a duplicate. -/
def timeoutEvent : Event :=
  { type := .arpDuplicate, reason := "arp/ndp timeout" }

/-- `arping_process`. -/
def processBody (c : Ctx) (ts : UInt64) : Ctx :=
  if c.Expired ts then c.timeout timeoutEvent else c

def arping : Probe.Module Unit where
  calloc := ()
  clear := id
  minLen := 14
  body := feedBody
  tick := processBody
  lossPct := Probe.Ctx.lossPct

abbrev createWithConfig := arping.createWithConfig
abbrev create := arping.create
abbrev reset := arping.reset
abbrev feedInput := arping.feedInput
abbrev feedInputWithTs := arping.feedInputWithTs
abbrev process := arping.process
abbrev nextEvent : Option Ctx → Option Event → Int × Option Ctx × Option Event :=
  Probe.Ctx.nextEvent
abbrev getStats := arping.getStats

/-! ## What the calls look at -/

def SameProbe (role : Role) (_ : Bool) (x y : UInt64 × Unit) : Prop :=
  Probe.SameClock role x.1 y.1

theorem arpPart_coupled {a b : Ctx} (h : Probe.Alike SameProbe a b) (d : List UInt8)
    (ts : UInt64) : RelOk (Probe.Coupled SameProbe 1 a b) (arpPart a d ts) (arpPart b d ts) := by
  have hclock : Probe.SameClock a.role a.sendTs b.sendTs := h.rest
  rw [arpPart, arpPart]
  by_cases hlen : d.length > 21
  · simp only [if_pos hlen]
    refine RelOk.bind_same _ fun t₀ => RelOk.bind_same _ fun t₁ => RelOk.bind_same _ fun op => ?_
    simp only [← h.role]
    split_ifs with hreply hrequest
    · refine RelOk.bind_same _ fun mac => ?_
      exact .ok (h.reply _ (hclock.latency hreply.2.2.2 ts) hclock)
    · exact .ok ((h.request (hclock.stamp ts)).mono (Nat.zero_le 1))
    · exact .ok (h.coupled 1)
  · simp only [if_neg hlen]
    exact .ok (h.coupled 1)

theorem ndpPart_coupled {a b : Ctx} (h : Probe.Alike SameProbe a b) (d : List UInt8)
    (ts : UInt64) : RelOk (Probe.Coupled SameProbe 1 a b) (ndpPart a d ts) (ndpPart b d ts) := by
  have hclock : Probe.SameClock a.role a.sendTs b.sendTs := h.rest
  rw [ndpPart, ndpPart]
  by_cases hlen : d.length > 40
  · simp only [if_pos hlen]
    refine RelOk.bind_same _ fun t₀ => RelOk.bind_same _ fun t₁ => ?_
    by_cases htype : t₀ = 0x86 ∧ t₁ = 0xdd
    · simp only [if_pos htype]
      refine RelOk.bind_same _ fun icmp6Type => ?_
      simp only [← h.role]
      -- An advertisement with a MAC, one that is too short for it, a solicitation, and the rest.
      split_ifs with hreply hmac hrequest
      · refine RelOk.bind_same _ fun mac => ?_
        exact .ok (h.reply _ (hclock.latency hreply.2 ts) hclock)
      · refine RelOk.bind_same _ fun mac => ?_
        exact .ok (h.reply _ (hclock.latency hreply.2 ts) hclock)
      · exact .ok ((h.request (hclock.stamp ts)).mono (Nat.zero_le 1))
      · exact .ok (h.coupled 1)
    · simp only [if_neg htype]
      exact .ok (h.coupled 1)
  · simp only [if_neg hlen]
    exact .ok (h.coupled 1)

/-- The part for neighbour discovery does nothing with a frame that may be an ARP frame. -/
theorem ndpPart_of_arp {d : List UInt8} (hlen : 14 ≤ d.length) (htype : d.getD 12 0 = 0x08)
    (c : Ctx) (ts : UInt64) : ndpPart c d ts = .ok c := by
  rw [ndpPart, rd_of_lt (by omega : 12 + 1 ≤ d.length), rd_of_lt (by omega : 13 + 1 ≤ d.length),
    htype]
  split_ifs <;> rfl

/-- The part for ARP does nothing with other frames. -/
theorem arpPart_of_not_arp {d : List UInt8} (hlen : 14 ≤ d.length) (htype : d.getD 12 0 ≠ 0x08)
    (c : Ctx) (ts : UInt64) : arpPart c d ts = .ok c := by
  rw [arpPart, rd_of_lt (by omega : 12 + 1 ≤ d.length), rd_of_lt (by omega : 13 + 1 ≤ d.length)]
  split_ifs with hroom
  · rw [rd_of_lt (by omega : 21 + 1 ≤ d.length)]
    simp only [htype, bind, Except.bind, pure, Except.pure, false_and, if_false]
  · rfl

/-- A frame has one ethertype: one of the parts does nothing. -/
theorem arpPart_or_ndpPart {d : List UInt8} (hlen : 14 ≤ d.length) (ts : UInt64) :
    (∀ c, arpPart c d ts = .ok c) ∨ ∀ c, ndpPart c d ts = .ok c := by
  by_cases htype : d.getD 12 0 = 0x08
  · exact .inr fun c => ndpPart_of_arp hlen htype c ts
  · exact .inl fun c => arpPart_of_not_arp hlen htype c ts

theorem feedBody_coupled {a b : Ctx} (h : Probe.Alike SameProbe a b) {d : List UInt8}
    (hlen : 14 ≤ d.length) (ts : UInt64) :
    RelOk (Probe.Coupled SameProbe 1 a b) (feedBody a d ts) (feedBody b d ts) := by
  rw [feedBody, feedBody]
  rcases arpPart_or_ndpPart hlen ts with harp | hndp
  · rw [harp a, harp b]
    exact ndpPart_coupled h d ts
  · simp only [hndp]
    refine RelOk.bind (arpPart_coupled h d ts) fun _ _ hpart => .ok hpart

theorem processBody_coupled {a b : Ctx} (h : Probe.Alike SameProbe a b) (ts : UInt64) :
    Probe.Coupled SameProbe 1 a b (processBody a ts) (processBody b ts) :=
  h.expire (fun _ => h.rest.2) fun _ => ⟨rfl, h.rest⟩

def coupling : Probe.Coupling arping where
  P := SameProbe
  bound := 1
  refl := fun role _ _ => .refl role _
  body := fun hlen ts h => feedBody_coupled h hlen ts
  tick := fun ts h => processBody_coupled h ts
  clear := fun h => h
  lossPct := fun h => h.lossPct

end Arping
end Netdiag
