import Netdiag.Probe.Coupling

/-!
# Arprecon — the ARP reconnaissance module

`src/arprecon.c`: a requester takes ARP replies, keeps the first 64 senders since the last reset,
and compares each of them with those before it.
-/

namespace Netdiag
namespace Arprecon

open Lib
open Probe (Role Event EventType)

abbrev maxNeigh : Nat := 64

/-- The fields of `struct arprecon_ctx` that the other modules do not have, except `last_mac`,
which is cleared and never read. -/
structure Own where
  neighMacs : Vector (Vector UInt8 6) maxNeigh
  neighIps : Vector UInt32 maxNeigh
  neighCount : Nat
  neighCount_le : neighCount ≤ maxNeigh
  deriving DecidableEq, Repr

abbrev Ctx : Type := Probe.Ctx Own

/-- Whether the neighbour in slot `i` has the address but another MAC. -/
def Own.Conflicts (o : Own) (i : Fin maxNeigh) (ip : UInt32) (mac : Vector UInt8 6) : Prop :=
  o.neighIps[i] = ip ∧ o.neighMacs[i] ≠ mac

instance (o : Own) (i : Fin maxNeigh) (ip : UInt32) (mac : Vector UInt8 6) :
    Decidable (o.Conflicts i ip mac) :=
  inferInstanceAs (Decidable (_ ∧ _))

def spoofEvent : Event :=
  { type := .arpSpoof, reason := "spoof detected" }

/-- What the loop of the spoof detection does for one neighbour. -/
def spoofStep (ip : UInt32) (mac : Vector UInt8 6) (c : Ctx) (i : Fin maxNeigh) : Ctx :=
  if c.own.Conflicts i ip mac then
    { c.qpush spoofEvent with dups := c.dups + 1 }
  else c

/-- The slots in front of slot `n`. -/
def slotsBelow (n : Nat) (hn : n ≤ maxNeigh) : List (Fin maxNeigh) :=
  (List.finRange n).map (Fin.castLE hn)

/-- The assignments to the next free slot. -/
def Own.add (o : Own) (mac : Vector UInt8 6) (ip : UInt32) (h : o.neighCount < maxNeigh) : Own where
  neighMacs := o.neighMacs.set o.neighCount mac
  neighIps := o.neighIps.set o.neighCount ip
  neighCount := o.neighCount + 1
  neighCount_le := h

/-- The neighbour table and the spoof detection, which stands inside the test for a free slot. -/
def learn (c : Ctx) (d : List UInt8) : Except Fault Ctx := do
  if h : c.own.neighCount < maxNeigh then
    let mac ← memcpy d 22 6
    let ip ← rd32Be d 28
    return (slotsBelow c.own.neighCount c.own.neighCount_le).foldl (spoofStep ip mac)
      { c with own := c.own.add mac ip h }
  else
    return c

/-- `arprecon_feed_input_with_ts`, behind its checks, with what a requester does with the
neighbours that send replies. -/
def arpBody {X : Type} (learn : Probe.Ctx X → List UInt8 → Except Fault (Probe.Ctx X))
    (c : Probe.Ctx X) (d : List UInt8) (ts : UInt64) : Except Fault (Probe.Ctx X) := do
  if d.length > 21 then
    let t₀ ← rd d 12
    let t₁ ← rd d 13
    if t₀ = 0x08 ∧ t₁ = 0x06 then
      let op ← rd16Be d 20
      if op = 2 ∧ c.role = .requester then
        let mac ← memcpy d 22 6
        learn (c.reply { type := .arpReply, srcMac := mac } ts) d
      else if op = 1 ∧ c.role = .responder then
        return c.request ts
      else
        return c
    else
      return c
  else
    return c

def feedBody (c : Ctx) (d : List UInt8) (ts : UInt64) : Except Fault Ctx :=
  arpBody learn c d ts

def timeoutEvent : Event :=
  { type := .arpAnomaly, reason := "arp recon timeout" }

/-- `arprecon_process`. -/
def processBody {X : Type} (c : Probe.Ctx X) (ts : UInt64) : Probe.Ctx X :=
  if c.Expired ts then c.timeout timeoutEvent else c

def arprecon : Probe.Module Own where
  calloc :=
    { neighMacs := Vector.replicate maxNeigh (Vector.replicate 6 0)
      neighIps := Vector.replicate maxNeigh 0
      neighCount := 0
      neighCount_le := Nat.zero_le _ }
  clear o := { o with neighCount := 0, neighCount_le := Nat.zero_le _ }
  minLen := 14
  body := feedBody
  tick := processBody
  lossPct := Probe.Ctx.lossPct

abbrev createWithConfig := arprecon.createWithConfig
abbrev create := arprecon.create
abbrev reset := arprecon.reset
abbrev feedInput := arprecon.feedInput
abbrev feedInputWithTs := arprecon.feedInputWithTs
abbrev process := arprecon.process
abbrev nextEvent : Option Ctx → Option Event → Int × Option Ctx × Option Event :=
  Probe.Ctx.nextEvent
abbrev getStats := arprecon.getStats

/-! ## What the calls look at -/

/-- The tables have the same neighbours; what the other slots hold is not looked at. -/
def SameTable (o p : Own) : Prop :=
  o.neighCount = p.neighCount ∧ ∀ i : Fin maxNeigh, i.1 < o.neighCount →
    o.neighIps[i] = p.neighIps[i] ∧ o.neighMacs[i] = p.neighMacs[i]

theorem SameTable.refl (o : Own) : SameTable o o :=
  ⟨rfl, fun _ _ => ⟨rfl, rfl⟩⟩

def SameProbe (role : Role) (_ : Bool) (x y : UInt64 × Own) : Prop :=
  Probe.SameClock role x.1 y.1 ∧ SameTable x.2 y.2

theorem mem_slotsBelow {n : Nat} {hn : n ≤ maxNeigh} {i : Fin maxNeigh}
    (h : i ∈ slotsBelow n hn) : i.1 < n := by
  rcases List.mem_map.1 h with ⟨j, _, rfl⟩
  exact j.2

theorem length_slotsBelow (n : Nat) (hn : n ≤ maxNeigh) : (slotsBelow n hn).length = n := by
  rw [slotsBelow, List.length_map, List.length_finRange]

/-- The loop of the spoof detection over slots that both tables have. -/
theorem foldl_spoofStep_coupled (ip : UInt32) (mac : Vector UInt8 6) {slots : List (Fin maxNeigh)}
    {a b : Ctx} (h : Probe.Alike SameProbe a b)
    (hslots : ∀ i ∈ slots, i.1 < a.own.neighCount) :
    Probe.Coupled SameProbe slots.length a b (slots.foldl (spoofStep ip mac) a)
      (slots.foldl (spoofStep ip mac) b) := by
  induction slots generalizing a b with
  | nil => exact h.coupled 0
  | cons i slots ih =>
      have hentry := h.rest.2.2 i (hslots i List.mem_cons_self)
      have hrest : ∀ j ∈ slots, j.1 < a.own.neighCount :=
        fun j hj => hslots j (List.mem_cons_of_mem i hj)
      have hconflict : a.own.Conflicts i ip mac ↔ b.own.Conflicts i ip mac := by
        rw [Own.Conflicts, Own.Conflicts, hentry.1, hentry.2]
      rw [List.foldl_cons, List.foldl_cons, List.length_cons, spoofStep, spoofStep]
      by_cases ha : a.own.Conflicts i ip mac
      · -- Both queue a spoof event and count a duplicate.
        rw [if_pos ha, if_pos (hconflict.1 ha)]
        have hfirst := h.duplicate spoofEvent
        exact (hfirst.trans (ih hfirst.2 hrest)).mono (Nat.le_of_eq (Nat.add_comm _ _))
      · rw [if_neg ha, if_neg (hconflict.not.1 ha)]
        exact (ih h hrest).mono (Nat.le_succ _)

/-- A neighbour that is added to both tables. -/
theorem SameTable.add {o p : Own} (h : SameTable o p) (mac : Vector UInt8 6) (ip : UInt32)
    (ho : o.neighCount < maxNeigh) (hp : p.neighCount < maxNeigh) :
    SameTable (o.add mac ip ho) (p.add mac ip hp) := by
  refine ⟨congrArg (· + 1) h.1, ?_⟩
  intro i hi
  have hcount : p.neighCount = o.neighCount := h.1.symm
  simp only [Own.add, Fin.getElem_fin, Vector.getElem_set, hcount]
  by_cases hlast : o.neighCount = i.1
  · simp only [if_pos hlast, and_self]
  · have hold := h.2 i (by simp only [Own.add] at hi; omega)
    simp only [Fin.getElem_fin] at hold
    simpa only [if_neg hlast] using hold

theorem slotsBelow_congr {n k : Nat} (h : n = k) (hn : n ≤ maxNeigh) (hk : k ≤ maxNeigh) :
    slotsBelow n hn = slotsBelow k hk := by
  subst h
  rfl

theorem learn_coupled {a b : Ctx} (h : Probe.Alike SameProbe a b) (d : List UInt8) :
    RelOk (Probe.Coupled SameProbe maxNeigh a b) (learn a d) (learn b d) := by
  have hcount : a.own.neighCount = b.own.neighCount := h.rest.2.1
  rw [learn, learn]
  by_cases ha : a.own.neighCount < maxNeigh
  · have hb : b.own.neighCount < maxNeigh := hcount ▸ ha
    simp only [dif_pos ha, dif_pos hb]
    refine RelOk.bind_same _ fun mac => RelOk.bind_same _ fun ip => ?_
    -- The loop looks only at slots in front of the new one, which both tables have.
    have hadd : Probe.Alike SameProbe { a with own := a.own.add mac ip ha }
        { b with own := b.own.add mac ip hb } :=
      h.withOwn ⟨h.rest.1, h.rest.2.add mac ip ha hb⟩
    have hslots : ∀ i ∈ slotsBelow a.own.neighCount a.own.neighCount_le,
        i.1 < (a.own.add mac ip ha).neighCount :=
      fun i hi => Nat.lt_succ_of_lt (mem_slotsBelow hi)
    have hloop := foldl_spoofStep_coupled ip mac hadd hslots
    rw [length_slotsBelow] at hloop
    rw [← slotsBelow_congr hcount a.own.neighCount_le]
    exact .ok (hloop.mono a.own.neighCount_le)
  · have hb : ¬ b.own.neighCount < maxNeigh := hcount ▸ ha
    simp only [dif_neg ha, dif_neg hb]
    exact .ok (h.coupled _)

theorem feedBody_coupled {a b : Ctx} (h : Probe.Alike SameProbe a b) (d : List UInt8)
    (ts : UInt64) :
    RelOk (Probe.Coupled SameProbe 65 a b) (feedBody a d ts) (feedBody b d ts) := by
  have hclock : Probe.SameClock a.role a.sendTs b.sendTs := h.rest.1
  rw [feedBody, feedBody, arpBody, arpBody]
  by_cases hlen : d.length > 21
  · simp only [if_pos hlen]
    refine RelOk.bind_same _ fun t₀ => RelOk.bind_same _ fun t₁ => ?_
    by_cases htype : t₀ = 0x08 ∧ t₁ = 0x06
    · simp only [if_pos htype]
      refine RelOk.bind_same _ fun op => ?_
      simp only [← h.role]
      split_ifs with hreply hrequest
      · -- The reply has its own event, and learning it makes at most one for each slot.
        refine RelOk.bind_same _ fun mac => ?_
        have hfirst := h.reply { type := .arpReply, srcMac := mac }
          (hclock.latency hreply.2 ts) h.rest
        exact hfirst.then (learn_coupled hfirst.2 d)
      · exact .ok ((h.request ⟨hclock.stamp ts, h.rest.2⟩).mono (Nat.zero_le _))
      · exact .ok (h.coupled _)
    · simp only [if_neg htype]
      exact .ok (h.coupled _)
  · simp only [if_neg hlen]
    exact .ok (h.coupled _)

theorem processBody_coupled {a b : Ctx} (h : Probe.Alike SameProbe a b) (ts : UInt64) :
    Probe.Coupled SameProbe 65 a b (processBody a ts) (processBody b ts) :=
  (h.expire (fun _ => h.rest.1.2) fun _ => ⟨rfl, h.rest⟩).mono (Nat.le_add_left 1 64)

def coupling : Probe.Coupling arprecon where
  P := SameProbe
  bound := 65
  refl := fun role _ _ => ⟨.refl role _, .refl _⟩
  body := fun _ ts h => feedBody_coupled h _ ts
  tick := fun ts h => processBody_coupled h ts
  clear := fun h => ⟨h.1, rfl, fun _ hi => absurd hi (Nat.not_lt_zero _)⟩
  lossPct := fun h => h.lossPct

end Arprecon
end Netdiag
