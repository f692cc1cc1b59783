import Netdiag.Probe.Packets
import Netdiag.Probe.Reset

/-!
# Immunity — packets that are not for a responder of traceroute

Traceroute keeps the time of a packet before it looks at its type, where ping keeps it only for a
request.  A packet that a responder ignores otherwise moves the timer of its probe.  It leaves no
trace exactly if the timer it sets cannot be told from the one there was (`immune_iff`).
-/

namespace Netdiag
namespace Traceroute

open Lib
open Probe (Role Event Call Result SameTimer)

/-! ## All public functions -/

inductive Op
  | call (call : Call)
  | recordHop (hop : Int) (success : Int) (latencyMs : UInt32)
  | hopLossPct (hop : Int)

inductive OpResult
  | call (r : Result)
  | done
  | hopLossPct (pct : Int)
  deriving DecidableEq

def opStep (ctx : Option Ctx) : Op → Except Fault (Option Ctx × OpResult)
  | .call call => do
      let (ctx, r) ← traceroute.step ctx call
      return (ctx, .call r)
  | .recordHop hop success latencyMs => return (recordHop ctx hop success latencyMs, .done)
  | .hopLossPct hop => return (ctx, .hopLossPct (hopLossPct ctx hop))

/-- The packet can be fed at this point of a run, and nothing that is returned afterwards tells
whether it was. -/
def Immune (c : Ctx) (d : List UInt8) (ts : UInt64) : Prop :=
  ∃ c' r, opStep (some c) (.call (.feedInputWithTs (some d) ts)) = .ok (some c', r) ∧
    ∀ ops, observe opStep (some c') ops = observe opStep (some c) ops

theorem observe_calls (ctx : Option Ctx) (calls : List Call) :
    observe opStep ctx (calls.map Op.call) =
      (observe traceroute.step ctx calls).map (Except.map OpResult.call) := by
  induction calls generalizing ctx with
  | nil => rfl
  | cons call calls ih =>
      rw [List.map_cons, observe, observe, opStep]
      cases traceroute.step ctx call with
      | ok x => exact congrArg (_ :: ·) (ih x.1)
      | error e => rfl

theorem map_call_injective :
    Function.Injective (List.map (Except.map (ε := Fault) OpResult.call)) := by
  apply List.map_injective_iff.2
  intro x y h
  cases x <;> cases y <;> cases h <;> rfl

/-! ## Contexts that differ in the timer -/

/-- The timers cannot be told apart, and all else is the same. -/
def SameButTimer (_ : Role) (_ : Bool) (x y : UInt64 × Own) : Prop :=
  SameTimer x.1 y.1 ∧ x.2 = y.2

theorem sameTimer_stamp {s t : UInt64} (h : SameTimer s t) (ts : UInt64) :
    SameTimer (if ts ≠ 0 then ts else s) (if ts ≠ 0 then ts else t) := by
  by_cases hts : ts ≠ 0
  · rw [if_pos hts, if_pos hts]
    exact .refl ts
  · rw [if_neg hts, if_neg hts]
    exact h

theorem feedBody_sameButTimer {a b : Ctx} (h : Probe.Alike SameButTimer a b) (d : List UInt8)
    (ts : UInt64) :
    RelOk (Probe.Coupled SameButTimer 1 a b) (feedBody a d ts) (feedBody b d ts) := by
  have htimer : SameTimer (a.stamp ts).sendTs (b.stamp ts).sendTs := sameTimer_stamp h.rest.1 ts
  have hstamp : Probe.Coupled SameButTimer 0 a b (a.stamp ts) (b.stamp ts) :=
    h.stamp ⟨htimer, h.rest.2⟩
  have hown : (a.stamp ts).own = (b.stamp ts).own := h.rest.2
  -- No latency is measured from the time that was kept before.
  have hlat : (a.stamp ts).latency ts = (b.stamp ts).latency ts := by
    rw [Probe.latency_stamp, Probe.latency_stamp]
  have hrole : (a.stamp ts).role = (b.stamp ts).role := hstamp.2.role
  apply RelOk.bind_same
  intro icmpType
  simp only [← hrole, hown, hlat]
  split_ifs
  · exact .ok (hstamp.trans (hstamp.2.reply _ hlat ⟨htimer, rfl⟩))
  · apply RelOk.bind_same
    intro seq
    have hrest := sameTimer_stamp htimer ts
    exact .ok ((hstamp.trans (hstamp.2.request ⟨hrest, rfl⟩)).mono (Nat.zero_le 1))
  · exact .ok (hstamp.mono (Nat.zero_le 1))

theorem processBody_sameButTimer {a b : Ctx} (h : Probe.Alike SameButTimer a b) (ts : UInt64) :
    Probe.Coupled SameButTimer 1 a b (processBody a ts) (processBody b ts) := by
  have hown : a.own = b.own := h.rest.2
  apply h.expire
  · intro _
    exact h.rest.1
  · intro _
    rw [timeoutEvent, timeoutEvent, hown]
    exact ⟨rfl, h.rest.1, rfl⟩

def timerCoupling : Probe.Coupling traceroute where
  P := SameButTimer
  bound := 1
  refl := fun _ _ _ => ⟨.refl _, rfl⟩
  body := fun _ ts h => feedBody_sameButTimer h _ ts
  tick := fun ts h => processBody_sameButTimer h ts
  clear := fun h => ⟨h.1, congrArg Own.clearHops h.2⟩
  lossPct := fun _ => rfl

open Probe.Coupling (Similar SimilarPtr)

theorem similar_recordHop {a b : Ctx} (h : timerCoupling.Similar a b) (hop success : Int)
    (latencyMs : UInt32) :
    timerCoupling.SimilarPtr (recordHop (some a) hop success latencyMs)
      (recordHop (some b) hop success latencyMs) := by
  have hown : a.own = b.own := h.alike.rest.2
  rw [recordHop, recordHop, Option.map_some, Option.map_some]
  split_ifs with hno
  · exact .ctx h
  · refine .ctx ⟨h.qsz, h.queued, h.alike.withOwn ⟨h.alike.rest.1, ?_⟩⟩
    rw [hown]

/-- The step lemma: an operation gives the same result on both, and leaves them similar. -/
theorem similar_opStep {p q : Option Ctx} (h : timerCoupling.SimilarPtr p q) (op : Op) :
    RelOk (fun x y => timerCoupling.SimilarPtr x.1 y.1 ∧ x.2 = y.2) (opStep p op)
      (opStep q op) := by
  cases op with
  | call call =>
      apply RelOk.bind (h.step call)
      intro x y hxy
      exact .ok ⟨hxy.1, congrArg OpResult.call hxy.2⟩
  | recordHop hop success latencyMs =>
      cases h with
      | null => exact .ok ⟨.null, rfl⟩
      | ctx hsim => exact .ok ⟨similar_recordHop hsim hop success latencyMs, rfl⟩
  | hopLossPct hop =>
      refine .ok ⟨h, ?_⟩
      cases h with
      | null => rfl
      | @ctx a b hsim =>
          have hown : a.own = b.own := hsim.alike.rest.2
          dsimp only
          rw [hopLossPct, hopLossPct, hown]

theorem observe_eq_of_sameTimer {a b : Ctx} (h : timerCoupling.Similar a b) (ops : List Op) :
    observe opStep (some a) ops = observe opStep (some b) ops :=
  observe_eq_of_bisim (R := timerCoupling.SimilarPtr) (fun _ _ op h => similar_opStep h op)
    (.ctx h) ops

/-! ## Packets that are not for a responder -/

/-- All that a responder does with the packet is to keep its time. -/
theorem opStep_of_not_probe {c : Ctx} (hrole : c.role = .responder) {d : List UInt8}
    (hlen : 30 ≤ d.length) (hd : ¬ IsProbe d) (ts : UInt64) :
    opStep (some c) (.call (.feedInputWithTs (some d) ts)) =
      .ok (some (c.stamp ts), .call (.code 0)) := by
  have hmin : 20 ≤ d.length := (by decide : 20 ≤ 30).trans hlen
  have hin : InBounds c d := ⟨by omega, fun hprobe => absurd hprobe hd⟩
  have hreply : ¬ (IsHopReply d ∧ c.role = .requester) := by
    intro hreply
    cases hrole.symm.trans hreply.2
  have hbody : feedBody c d ts = .ok (c.stamp ts) := by
    rw [feedBody_eq hmin hin, fed, if_neg hreply, if_neg fun hprobe => hd hprobe.1]
  have hstep : traceroute.step (some c) (.feedInputWithTs (some d) ts) =
      .ok (some (c.stamp ts), .code 0) := Probe.Module.step_of_body (.inl rfl) hmin hbody
  rw [opStep, hstep]
  rfl

/-- The packet leaves no trace exactly if it leaves the timer as it is, for all that can be told. -/
theorem immune_iff_sameTimer {c : Ctx} (hrole : c.role = .responder) {d : List UInt8}
    (hlen : 30 ≤ d.length) (hd : ¬ IsProbe d) (ts : UInt64) :
    Immune c d ts ↔ SameTimer (c.stamp ts).sendTs c.sendTs := by
  have hstep := opStep_of_not_probe hrole hlen hd ts
  constructor
  · intro h
    rcases h with ⟨c', r, hfed, hsame⟩
    cases hstep.symm.trans hfed
    have hrole' : (c.stamp ts).role = .responder := hrole
    apply Probe.sameTimer_of_observe isRequest_probePacket timed.countsTimeouts hrole' hrole rfl
    intro now s
    apply map_call_injective
    rw [← observe_calls, ← observe_calls]
    exact hsame _
  · intro h
    refine ⟨_, _, hstep, ?_⟩
    intro ops
    apply observe_eq_of_sameTimer
    exact ⟨rfl, rfl, rfl, rfl, rfl, rfl, rfl, rfl, rfl, rfl, rfl, h, rfl⟩

/-- A packet of at least 30 bytes that is no probe leaves no trace on a responder exactly if it
comes without a time, with the time that the context has, or with one of which no timeout comes
where the context has none. -/
theorem immune_iff {c : Ctx} (hrole : c.role = .responder) {d : List UInt8} (hlen : 30 ≤ d.length)
    (hd : d.getD 20 0 ≠ 8) (ts : UInt64) :
    Immune c d ts ↔
      ts = 0 ∨ ts = c.sendTs ∨ c.sendTs = 0 ∧ ts = 0xFFFFFFFFFFFFFC17 := by
  rw [immune_iff_sameTimer hrole hlen hd]
  by_cases hts : ts = 0
  · have hkept : (c.stamp ts).sendTs = c.sendTs := if_neg (not_not_intro hts)
    rw [hkept]
    exact iff_of_true (.refl _) (.inl hts)
  · have hset : (c.stamp ts).sendTs = ts := if_pos hts
    rw [hset, Probe.sameTimer_iff, Probe.sameTimer_zero_iff, Probe.sameTimer_zero_iff]
    constructor
    · intro h
      rcases h with hsame | ⟨hnone | hlast, hzero | hsame⟩
      · exact .inr (.inl hsame)
      · exact .inl hnone
      · exact .inl hnone
      · exact .inr (.inr ⟨hzero, hlast⟩)
      · exact .inr (.inl (hlast.trans hsame.symm))
    · intro h
      rcases h with hnone | hsame | ⟨hzero, hlast⟩
      · exact absurd hnone hts
      · exact .inl hsame
      · exact .inr ⟨.inr hlast, .inl hzero⟩

/-- A probe that times out, and another one. -/
def twoProbes : List Call :=
  [.feedInputWithTs (some probePacket) 1, .process 2000, .feedInputWithTs (some probePacket) 2500]

/-- An ICMP error. -/
def strayError : List UInt8 :=
  List.replicate 20 0 ++ 11 :: List.replicate 9 0

/-- A responder that has counted a timeout and waits is fed the error with the time of its probe,
without a time, and with a later time. -/
theorem immune_twoProbes :
    ∃ c, traceroute.play (some (traceroute.create .responder)) twoProbes = .ok (some c) ∧
      c.waiting ∧ c.timeouts = 1 ∧
      Immune c strayError 2500 ∧ Immune c strayError 0 ∧ ¬ Immune c strayError 2600 := by
  have hplay : traceroute.play (some (traceroute.create .responder)) twoProbes =
      .ok (some _) := rfl
  have hstray : strayError.getD 20 0 ≠ 8 := by decide
  refine ⟨_, hplay, rfl, rfl, ?_, ?_, ?_⟩
  · exact (immune_iff rfl (by decide) hstray 2500).2 (.inr (.inl rfl))
  · exact (immune_iff rfl (by decide) hstray 0).2 (.inl rfl)
  · rw [immune_iff rfl (by decide) hstray 2600]
    decide

/-- A responder that has kept a probe at time `1`. -/
def probed : Ctx :=
  { (traceroute.create .responder).request 1 with
    own := { (traceroute.create .responder).own with lastSeq := 0 } }

/-- Thirty zeros at time `2000` put off the timeout of the probe. -/
theorem timeout_put_off :
    traceroute.step (some (traceroute.create .responder))
      (.feedInputWithTs (some probePacket) 1) = .ok (some probed, .code 0) ∧
    probed.role = .responder ∧ ¬ Immune probed (List.replicate 30 0) 2000 := by
  have hrole : probed.role = .responder := rfl
  have hzero : (List.replicate 30 (0 : UInt8)).getD 20 0 ≠ 8 := by decide
  refine ⟨rfl, hrole, ?_⟩
  intro h
  have htimer := (immune_iff_sameTimer hrole (by decide) hzero 2000).1 h
  -- At 2500 the probe has expired, unless it is taken to be of 2000.
  have hlate := (htimer 2500).2 ⟨by decide, by decide⟩
  exact absurd hlate.2 (by decide)

end Traceroute
end Netdiag
