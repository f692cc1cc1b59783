import Netdiag.Probe.Arping
import Netdiag.Probe.Arprecon
import Netdiag.Probe.Dnsdiag
import Netdiag.Probe.History
import Netdiag.Probe.Ping
import Netdiag.Probe.Traceroute

/-!
# Reset — what is left of the past after a reset

`qinit` clears the queue and the counters of a context and leaves the time of the last probe.  A
responder reads that time again when it is fed a request that comes without a time: what was timed
out after a reset depends on what came before.  A context looks like a new one after a reset
exactly if it is a requester's, or its time is one that never runs out
(`resetsLikeFresh_iff_quiet`).
Dnsdiag leaves the time too, but never reads it (`Dnsdiag.observe_reset`).
-/

namespace Netdiag
namespace Probe

open Lib

variable {X : Type}

/-- The context as `*_reset` leaves it. -/
def Module.resetCtx (m : Module X) (c : Ctx X) : Ctx X :=
  m.qinit c.role c.ring.1 c.sendTs c.own c.qsz

/-- A new context with the role and the queue size of another one. -/
def Module.fresh (m : Module X) (c : Ctx X) : Ctx X :=
  m.createWithConfig c.role (some ⟨c.qsz⟩)

/-- No sequence of calls tells the context after a reset from a new one. -/
def Module.ResetsLikeFresh (m : Module X) (c : Ctx X) : Prop :=
  ∀ calls : List Call, .reset ∉ calls →
    observe m.step (m.reset (some c)) calls = observe m.step (some (m.fresh c)) calls

/-! ## Telling a context that was reset from a new one -/

/-- A packet that a responder takes for a request whatever its context. -/
def Module.IsRequest (m : Module X) (d : List UInt8) : Prop :=
  m.minLen ≤ d.length ∧ ∀ c : Ctx X, c.role = .responder →
    ∃ o, m.body c d 0 = .ok { c.request 0 with own := o }

/-- `*_process` counts a timeout where a probe has expired. -/
def Module.CountsTimeouts (m : Module X) : Prop :=
  ∀ (c : Ctx X) ts, (m.tick c ts).timeouts = if c.Expired ts then c.timeouts + 1 else c.timeouts

/-- All that `*_process` does is to time out a probe that has expired. -/
def Module.Timed (m : Module X) : Prop :=
  ∃ (ev : Ctx X → Event) (own : Ctx X → X), ∀ c ts,
    m.tick c ts = if c.Expired ts then { c.timeout (ev c) with own := own c } else c

theorem Module.Timed.countsTimeouts {m : Module X} (h : m.Timed) : m.CountsTimeouts := by
  rcases h with ⟨ev, own, htick⟩
  intro c ts
  rw [htick]
  split_ifs <;> rfl

theorem Module.Timed.keeps {m : Module X} (h : m.Timed) (c : Ctx X) (ts : UInt64) :
    (m.tick c ts).role = c.role ∧ (m.tick c ts).sendTs = c.sendTs := by
  rcases h with ⟨ev, own, htick⟩
  rw [htick]
  split_ifs <;> exact ⟨rfl, rfl⟩

/-- The calls that tell contexts with different timers apart: a request without a time, and then
some time passes. -/
def probeCalls (d : List UInt8) (ts : UInt64) (s : Stats) : List Call :=
  [.feedInput (some d), .process ts, .getStats (some s)]

/-- What a caller sees of a responder's context when it makes these calls. -/
theorem observe_probeCalls {m : Module X} {d : List UInt8} (hd : m.IsRequest d)
    (hcounts : m.CountsTimeouts) {c : Ctx X} (hrole : c.role = .responder) (ts : UInt64)
    (s : Stats) :
    ∃ st : Stats,
      observe m.step (some c) (probeCalls d ts s) =
        [.ok (.code 0), .ok (.code 0), .ok (.stats 0 (some st))] ∧
      st.timeouts = if c.sendTs ≠ 0 ∧ ts > c.sendTs + 1000 then c.timeouts + 1
        else c.timeouts := by
  rcases hd.2 c hrole with ⟨o, hbody⟩
  -- The request without a time starts the timer with the time that the context has.
  let waiting : Ctx X := { c.request 0 with own := o }
  have hfeed : m.step (some c) (.feedInput (some d)) = .ok (some waiting, .code 0) := by
    rw [Module.step_feed (.inr ⟨rfl, rfl⟩), Module.feedInputWithTs_of_le hd.1, hbody]
    rfl
  have hexpired : waiting.Expired ts ↔ c.sendTs ≠ 0 ∧ ts > c.sendTs + 1000 := by
    simp [waiting, Ctx.Expired, Ctx.request, Ctx.stamp]
  refine ⟨(m.tick waiting ts).stats (m.lossPct (m.tick waiting ts)), ?_, ?_⟩
  · rw [probeCalls, observe, hfeed]
    rfl
  · refine (hcounts waiting ts).trans ?_
    simp only [hexpired]
    rfl

/-- If these calls do not tell two responders' contexts apart, nothing tells their timers apart. -/
theorem sameTimer_of_observe {m : Module X} {d : List UInt8} (hd : m.IsRequest d)
    (hcounts : m.CountsTimeouts) {a b : Ctx X} (ha : a.role = .responder)
    (hb : b.role = .responder) (htimeouts : a.timeouts = b.timeouts)
    (h : ∀ ts s, observe m.step (some a) (probeCalls d ts s) =
      observe m.step (some b) (probeCalls d ts s)) : SameTimer a.sendTs b.sendTs := by
  intro ts
  rcases observe_probeCalls hd hcounts ha ts ⟨0, 0, 0, 0, 0, 0, 0⟩ with ⟨st, hobs, hst⟩
  rcases observe_probeCalls hd hcounts hb ts ⟨0, 0, 0, 0, 0, 0, 0⟩ with ⟨st', hobs', hst'⟩
  have hsame : st = st' := by
    have hlists := hobs.symm.trans ((h ts ⟨0, 0, 0, 0, 0, 0, 0⟩).trans hobs')
    simpa using hlists
  have hone : b.timeouts + 1 ≠ b.timeouts := by
    intro hraised
    have hzero : (1 : UInt32) = 0 :=
      (UInt32.add_right_inj b.timeouts).1 (hraised.trans (UInt32.add_zero _).symm)
    exact absurd hzero (by decide)
  rw [hsame, hst', htimeouts] at hst
  -- One of them has counted a timeout exactly if the other has.
  split_ifs at hst with hnew hold hold
  · exact ⟨fun _ => hnew, fun _ => hold⟩
  · exact absurd hst hone
  · exact absurd hst.symm hone
  · exact ⟨fun h => absurd h hold, fun h => absurd h hnew⟩

/-- If no caller can tell the contexts apart, the timer that is left never runs out. -/
theorem sameTimer_of_resetsLikeFresh {m : Module X} {d : List UInt8} (hd : m.IsRequest d)
    (hcounts : m.CountsTimeouts) {c : Ctx X} (hrole : c.role = .responder)
    (h : m.ResetsLikeFresh c) : SameTimer c.sendTs 0 := by
  have hboth : (m.resetCtx c).role = .responder ∧ (m.fresh c).role = .responder := ⟨hrole, hrole⟩
  have hsame : SameTimer (m.resetCtx c).sendTs (m.fresh c).sendTs := by
    apply sameTimer_of_observe hd hcounts hboth.1 hboth.2 rfl
    intro ts s
    exact h (probeCalls d ts s) (by simp [probeCalls])
  exact hsame

/-! ## The probe modules -/

/-- A requester's context, or one whose time of the last probe is none or so late that its timeout
never comes. -/
def Quiet (c : Ctx X) : Prop :=
  c.role = .requester ∨ c.sendTs = 0 ∨ c.sendTs = 0xFFFFFFFFFFFFFC17

/-- The rule for a module whose requesters look like new after a reset. -/
theorem resetsLikeFresh_iff_quiet {m : Module X} (k : Coupling m) {d : List UInt8}
    (hd : m.IsRequest d) (htimed : m.Timed) {c : Ctx X}
    (hrest : c.role = .requester ∨ SameTimer c.sendTs 0 →
      k.P c.role false (c.sendTs, m.clear c.own) (0, m.clear m.calloc)) :
    m.ResetsLikeFresh c ↔ Quiet c := by
  constructor
  · intro hlike
    cases hrole : c.role with
    | requester => exact .inl hrole
    | responder =>
        -- A responder's timer can be watched, so it is one that never runs out.
        have htimer := sameTimer_of_resetsLikeFresh hd htimed.countsTimeouts hrole hlike
        exact .inr (sameTimer_zero_iff.1 htimer)
  · intro hquiet calls _
    have hsim := Coupling.similar_reset (k := k) (hrest (hquiet.imp_right sameTimer_zero_iff.2))
    exact hsim.observe_eq calls

/-- The rule for a module whose requesters never set the time of the last probe. -/
theorem sendTs_of_requester {m : Module X}
    (hbody : ∀ c d ts, (c.role = .requester → c.sendTs = 0) →
      OkAll (fun c' => c'.role = .requester → c'.sendTs = 0) (m.body c d ts))
    (htimed : m.Timed) (haside : ∀ c c', ¬ m.aside c c') {c : Ctx X} (h : m.Reachable c)
    (hrole : c.role = .requester) : c.sendTs = 0 := by
  refine h.invariant (I := fun c => c.role = .requester → c.sendTs = 0) (fun _ _ _ _ => rfl)
    hbody ?_ (fun c q hI hq hr => hI (hq ▸ hr)) (fun _ _ _ hI => hI)
    (fun c c' _ hside => absurd hside (haside c c')) hrole
  intro c ts hI
  rw [(htimed.keeps c ts).1, (htimed.keeps c ts).2]
  exact hI

theorem sameClock_of_quiet {c : Ctx X} (hzero : c.role = .requester → c.sendTs = 0)
    (hquiet : c.role = .requester ∨ SameTimer c.sendTs 0) : SameClock c.role c.sendTs 0 := by
  refine ⟨hzero, ?_⟩
  rcases hquiet with hrole | htimer
  · rw [hzero hrole]
    exact .refl 0
  · exact htimer

end Probe

/-! ### Ping -/

namespace Ping

open Lib

theorem timed : ping.Timed :=
  ⟨timeoutEvent, fun c => c.own, fun _ _ => rfl⟩

theorem sendTs_of_requester {c : Ctx} (h : ping.Reachable c) (hrole : c.role = .requester) :
    c.sendTs = 0 := by
  refine Probe.sendTs_of_requester ?_ timed (fun _ _ (hside : False) => hside) h hrole
  intro c d ts hI
  refine OkAll.bind _ fun type => ?_
  split_ifs with hreply hrequest
  · exact OkAll.bind _ fun seq => .ok hI
  · exact OkAll.bind _ fun seq => .ok fun hr => by cases hr.symm.trans hrequest.2
  · exact .ok hI

/-- An echo request. -/
def echoRequest : List UInt8 := [8, 0, 0, 0, 0, 0, 0, 0]

theorem isRequest_echoRequest : ping.IsRequest echoRequest := by
  refine ⟨by decide, fun c hrole => ⟨{ lastSeq := 0 }, ?_⟩⟩
  have htype : rd echoRequest 0 = .ok 8 := rfl
  have hseq : rd16Be echoRequest 6 = .ok 0 := rfl
  show feedBody c echoRequest 0 = _
  simp +decide [feedBody, htype, hseq, hrole, bind, Except.bind, pure, Except.pure]

theorem resetsLikeFresh_iff {c : Ctx} (h : ping.Reachable c) :
    ping.ResetsLikeFresh c ↔ Probe.Quiet c := by
  refine Probe.resetsLikeFresh_iff_quiet coupling isRequest_echoRequest timed ?_
  intro hquiet
  exact ⟨Probe.sameClock_of_quiet (sendTs_of_requester h) hquiet, fun hw => by cases hw⟩

end Ping

/-! ### Arping -/

namespace Arping

open Lib

theorem arpPart_keeps {c : Ctx} (d : List UInt8) (ts : UInt64)
    (hI : c.role = .requester → c.sendTs = 0) :
    OkAll (fun c' => c'.role = .requester → c'.sendTs = 0) (arpPart c d ts) := by
  rw [arpPart]
  split_ifs with hlen
  · refine OkAll.bind _ fun t₀ => OkAll.bind _ fun t₁ => OkAll.bind _ fun op => ?_
    split_ifs with hreply hrequest
    · exact OkAll.bind _ fun mac => .ok hI
    · exact .ok fun hr => by cases hr.symm.trans hrequest.2.2.2
    · exact .ok hI
  · exact .ok hI

theorem ndpPart_keeps {c : Ctx} (d : List UInt8) (ts : UInt64)
    (hI : c.role = .requester → c.sendTs = 0) :
    OkAll (fun c' => c'.role = .requester → c'.sendTs = 0) (ndpPart c d ts) := by
  rw [ndpPart]
  by_cases hlen : d.length > 40
  · simp only [if_pos hlen]
    refine OkAll.bind _ fun t₀ => OkAll.bind _ fun t₁ => ?_
    by_cases htype : t₀ = 0x86 ∧ t₁ = 0xdd
    · simp only [if_pos htype]
      refine OkAll.bind _ fun icmp6Type => ?_
      split_ifs with hreply hmac hrequest
      · exact OkAll.bind _ fun mac => .ok hI
      · exact OkAll.bind _ fun mac => .ok hI
      · exact .ok fun hr => by cases hr.symm.trans hrequest.2
      · exact .ok hI
    · simp only [if_neg htype]
      exact .ok hI
  · simp only [if_neg hlen]
    exact .ok hI

theorem timed : arping.Timed :=
  ⟨fun _ => timeoutEvent, fun c => c.own, fun _ _ => rfl⟩

theorem sendTs_of_requester {c : Ctx} (h : arping.Reachable c) (hrole : c.role = .requester) :
    c.sendTs = 0 := by
  refine Probe.sendTs_of_requester ?_ timed (fun _ _ (hside : False) => hside) h hrole
  intro c d ts hI
  refine OkAll.bind_of (arpPart_keeps d ts hI) fun c' hI' => ndpPart_keeps d ts hI'

/-- An ARP request, cut off behind the opcode. -/
def arpRequest : List UInt8 :=
  [0, 0, 0, 0, 0, 0, 0, 0, 0, 0, 0, 0, 8, 6, 0, 0, 0, 0, 0, 0, 0, 1]

theorem isRequest_arpRequest : arping.IsRequest arpRequest := by
  refine ⟨by decide, fun c hrole => ⟨(), ?_⟩⟩
  have ht₀ : rd arpRequest 12 = .ok 8 := rfl
  have ht₁ : rd arpRequest 13 = .ok 6 := rfl
  have hop : rd arpRequest 21 = .ok 1 := rfl
  show feedBody c arpRequest 0 = _
  simp +decide [feedBody, arpPart, ndpPart, ht₀, ht₁, hop, hrole, bind, Except.bind, pure,
    Except.pure]

theorem resetsLikeFresh_iff {c : Ctx} (h : arping.Reachable c) :
    arping.ResetsLikeFresh c ↔ Probe.Quiet c := by
  refine Probe.resetsLikeFresh_iff_quiet coupling isRequest_arpRequest timed ?_
  intro hquiet
  exact Probe.sameClock_of_quiet (sendTs_of_requester h) hquiet

end Arping

/-! ### Arprecon -/

namespace Arprecon

open Lib

theorem foldl_spoofStep_keeps (ip : UInt32) (mac : Vector UInt8 6) (slots : List (Fin maxNeigh))
    (c : Ctx) : (slots.foldl (spoofStep ip mac) c).role = c.role ∧
      (slots.foldl (spoofStep ip mac) c).sendTs = c.sendTs := by
  induction slots generalizing c with
  | nil => exact ⟨rfl, rfl⟩
  | cons i slots ih =>
      have hstep : (spoofStep ip mac c i).role = c.role ∧
          (spoofStep ip mac c i).sendTs = c.sendTs := by
        rw [spoofStep]
        split_ifs <;> exact ⟨rfl, rfl⟩
      rw [List.foldl_cons]
      exact ⟨(ih _).1.trans hstep.1, (ih _).2.trans hstep.2⟩

/-- Learning a neighbour changes neither the role nor the time of the last probe. -/
theorem learn_keeps {c c' : Ctx} {d : List UInt8} (h : learn c d = .ok c') :
    c'.role = c.role ∧ c'.sendTs = c.sendTs := by
  refine (?_ : OkAll (fun c' => c'.role = c.role ∧ c'.sendTs = c.sendTs) (learn c d)) c' h
  rw [learn]
  split_ifs with hfree
  · refine OkAll.bind _ fun mac => OkAll.bind _ fun ip => .ok ?_
    exact foldl_spoofStep_keeps ip mac _ _
  · exact .ok ⟨rfl, rfl⟩

theorem timed : arprecon.Timed :=
  ⟨fun _ => timeoutEvent, fun c => c.own, fun _ _ => rfl⟩

theorem sendTs_of_requester {c : Ctx} (h : arprecon.Reachable c) (hrole : c.role = .requester) :
    c.sendTs = 0 := by
  refine Probe.sendTs_of_requester ?_ timed (fun _ _ (hside : False) => hside) h hrole
  intro c d ts hI
  show OkAll _ (feedBody c d ts)
  rw [feedBody, arpBody]
  split_ifs with hlen
  · refine OkAll.bind _ fun t₀ => OkAll.bind _ fun t₁ => ?_
    split_ifs with htype
    · refine OkAll.bind _ fun op => ?_
      split_ifs with hreply hrequest
      · -- A requester learns the neighbour, which does not touch the time.
        refine OkAll.bind _ fun mac => ?_
        intro c' hlearn hr
        rcases learn_keeps hlearn with ⟨hrole, hts⟩
        exact hts.trans (hI (hrole.symm.trans hr))
      · exact .ok fun hr => by cases hr.symm.trans hrequest.2
      · exact .ok hI
    · exact .ok hI
  · exact .ok hI

theorem isRequest_arpRequest : arprecon.IsRequest Arping.arpRequest := by
  refine ⟨by decide, fun c hrole => ⟨c.own, ?_⟩⟩
  have ht₀ : rd Arping.arpRequest 12 = .ok 8 := rfl
  have ht₁ : rd Arping.arpRequest 13 = .ok 6 := rfl
  have hop : rd16Be Arping.arpRequest 20 = .ok 1 := rfl
  show feedBody c Arping.arpRequest 0 = _
  simp +decide [feedBody, arpBody, ht₀, ht₁, hop, hrole, bind, Except.bind, pure, Except.pure]
  rfl

theorem resetsLikeFresh_iff {c : Ctx} (h : arprecon.Reachable c) :
    arprecon.ResetsLikeFresh c ↔ Probe.Quiet c := by
  refine Probe.resetsLikeFresh_iff_quiet coupling isRequest_arpRequest timed ?_
  intro hquiet
  exact ⟨Probe.sameClock_of_quiet (sendTs_of_requester h) hquiet, rfl,
    fun _ hi => absurd hi (Nat.not_lt_zero _)⟩

end Arprecon

/-! ### Traceroute -/

namespace Traceroute

open Lib

theorem timed : traceroute.Timed :=
  ⟨timeoutEvent, fun c => c.own.recordHop (hopOf c.own.lastSeq) false 0, fun _ _ => rfl⟩

/-- Only a responder keeps a sequence number. -/
theorem lastSeq_of_requester {c : Ctx} (h : traceroute.Reachable c)
    (hrole : c.role = .requester) : c.own.lastSeq = 0 := by
  refine h.invariant (m := traceroute)
    (I := fun c : Ctx => c.role = .requester → c.own.lastSeq = 0) (fun _ _ _ _ => rfl) ?_ ?_
    (fun c q hI hq hr => hI (hq ▸ hr)) (fun _ _ _ hI => hI) ?_ hrole
  · intro c d ts hI
    refine OkAll.bind _ fun icmpType => ?_
    -- Only a probe sets the number, and only a responder takes it.
    split_ifs with hreply hrequest
    · refine .ok fun hr => ?_
      exact (lastSeq_recordHop _ _ _ _).trans (hI hr)
    · exact OkAll.bind _ fun seq => .ok fun hr => by cases hr.symm.trans hrequest.2
    · exact .ok hI
  · intro c ts hI
    show (processBody c ts).role = .requester → (processBody c ts).own.lastSeq = 0
    rw [processBody]
    split_ifs with hexpired
    · exact fun hr => (lastSeq_recordHop _ _ _ _).trans (hI hr)
    · exact hI
  · rintro c c' hI ⟨hop, success, latencyMs, hrecord⟩
    rw [← Option.some.inj hrecord]
    split_ifs with hno
    · exact hI
    · exact fun hr => (lastSeq_recordHop _ _ _ _).trans (hI hr)

/-- A probe of `ping`'s kind, where the module looks for one. -/
def probePacket : List UInt8 :=
  [0, 0, 0, 0, 0, 0, 0, 0, 0, 0, 0, 0, 0, 0, 0, 0, 0, 0, 0, 0, 8, 0, 0, 0, 0, 0, 0, 0, 0, 0]

theorem isRequest_probePacket : traceroute.IsRequest probePacket := by
  refine ⟨by decide, fun c hrole => ⟨{ c.own with lastSeq := 0 }, ?_⟩⟩
  have htype : rd probePacket 20 = .ok 8 := rfl
  have hseq : rd16Be probePacket 28 = .ok 0 := rfl
  show feedBody c probePacket 0 = _
  simp +decide [feedBody, htype, hseq, hrole, Probe.Ctx.stamp, Probe.Ctx.request, bind,
    Except.bind, pure, Except.pure]

theorem resetsLikeFresh_iff {c : Ctx} (h : traceroute.Reachable c) :
    traceroute.ResetsLikeFresh c ↔ Probe.Quiet c := by
  refine Probe.resetsLikeFresh_iff_quiet coupling isRequest_probePacket timed ?_
  intro hquiet
  -- A responder's time is looked at, a requester's sequence number is; nothing waits.
  refine ⟨?_, ?_⟩
  · rintro (hresponder | hwaiting)
    · refine hquiet.resolve_left fun hrequester => ?_
      cases hrequester.symm.trans hresponder
    · cases hwaiting
  · rintro (hrequester | hwaiting)
    · exact lastSeq_of_requester h hrequester
    · cases hwaiting

end Traceroute

/-! ### Dnsdiag -/

namespace Dnsdiag

open Lib

/-- Only a responder keeps an identifier. -/
theorem lastSeq_of_requester {c : Ctx} (h : dnsdiag.Reachable c)
    (hrole : c.role = .requester) : c.own.lastSeq = 0 := by
  refine h.invariant (m := dnsdiag) (I := fun c : Ctx => c.role = .requester → c.own.lastSeq = 0)
    (fun _ _ _ _ => rfl) ?_ (fun _ _ hI => hI) (fun c q hI hq hr => hI (hq ▸ hr))
    (fun _ _ _ hI => hI) (fun _ _ _ (hside : False) => hside.elim) hrole
  intro c d ts hI
  refine OkAll.bind _ fun flags => ?_
  dsimp only
  split_ifs with hfault hreply hrequest
  · exact .ok hI
  · exact .ok hI
  · exact OkAll.bind _ fun id => .ok fun hr => by cases hr.symm.trans hrequest
  · exact .ok hI

/-- A context looks like a new one after a reset, to callers that reset it again too. -/
theorem observe_reset {c : Ctx} (h : dnsdiag.Reachable c) (calls : List Probe.Call) :
    observe dnsdiag.step (dnsdiag.reset (some c)) calls =
      observe dnsdiag.step (some (dnsdiag.fresh c)) calls := by
  have hrest : SameProbe c.role false (c.sendTs, c.own) (0, { lastSeq := 0 }) := by
    intro hrequester
    have hseq := lastSeq_of_requester h hrequester
    exact congrArg Own.mk hseq
  exact (Probe.Coupling.similar_reset (k := coupling) hrest).observe_eq calls

end Dnsdiag

/-! ## The four modules with timers -/

open Ping (ping)
open Arping (arping)
open Traceroute (traceroute)
open Arprecon (arprecon)

/-- A context looks like a new one after a reset exactly if it is a requester's, or the time of its
last probe is none or one whose timeout never comes. -/
theorem reset_eq_fresh_iff {pc : Ping.Ctx} {ac : Arping.Ctx} {tc : Traceroute.Ctx}
    {rc : Arprecon.Ctx} (hp : ping.Reachable pc) (ha : arping.Reachable ac)
    (ht : traceroute.Reachable tc) (hr : arprecon.Reachable rc) :
    (ping.ResetsLikeFresh pc ↔ Probe.Quiet pc) ∧
    (arping.ResetsLikeFresh ac ↔ Probe.Quiet ac) ∧
    (traceroute.ResetsLikeFresh tc ↔ Probe.Quiet tc) ∧
    (arprecon.ResetsLikeFresh rc ↔ Probe.Quiet rc) :=
  ⟨Ping.resetsLikeFresh_iff hp, Arping.resetsLikeFresh_iff ha, Traceroute.resetsLikeFresh_iff ht,
    Arprecon.resetsLikeFresh_iff hr⟩

/-- A request that times out, and another one, at the last time of which no timeout comes. -/
def lateRequest (d : List UInt8) : List Probe.Call :=
  [.feedInputWithTs (some d) 1, .process 2000, .feedInputWithTs (some d) 0xFFFFFFFFFFFFFC17]

/-- Responders that have counted a timeout, have its event in their queue, and wait. -/
theorem reset_eq_fresh_lateRequest :
    ∃ pc ac tc rc,
      ping.play (some (ping.create .responder)) (lateRequest Ping.echoRequest) = .ok (some pc) ∧
      arping.play (some (arping.create .responder)) (lateRequest Arping.arpRequest) =
        .ok (some ac) ∧
      traceroute.play (some (traceroute.create .responder)) (lateRequest Traceroute.probePacket) =
        .ok (some tc) ∧
      arprecon.play (some (arprecon.create .responder)) (lateRequest Arping.arpRequest) =
        .ok (some rc) ∧
      (pc.waiting ∧ ac.waiting ∧ tc.waiting ∧ rc.waiting) ∧
      (pc.timeouts = 1 ∧ ac.timeouts = 1 ∧ tc.timeouts = 1 ∧ rc.timeouts = 1) ∧
      ping.ResetsLikeFresh pc ∧ arping.ResetsLikeFresh ac ∧ traceroute.ResetsLikeFresh tc ∧
      arprecon.ResetsLikeFresh rc := by
  have hp : ping.play (some (ping.create .responder)) (lateRequest Ping.echoRequest) =
      .ok (some _) := rfl
  have ha : arping.play (some (arping.create .responder)) (lateRequest Arping.arpRequest) =
      .ok (some _) := rfl
  have ht : traceroute.play (some (traceroute.create .responder))
      (lateRequest Traceroute.probePacket) = .ok (some _) := rfl
  have hr : arprecon.play (some (arprecon.create .responder)) (lateRequest Arping.arpRequest) =
      .ok (some _) := rfl
  have hiff := reset_eq_fresh_iff (.played (.create .responder none) hp)
    (.played (.create .responder none) ha) (.played (.create .responder none) ht)
    (.played (.create .responder none) hr)
  exact ⟨_, _, _, _, hp, ha, ht, hr, ⟨rfl, rfl, rfl, rfl⟩, ⟨rfl, rfl, rfl, rfl⟩,
    hiff.1.2 (.inr (.inr rfl)), hiff.2.1.2 (.inr (.inr rfl)), hiff.2.2.1.2 (.inr (.inr rfl)),
    hiff.2.2.2.2 (.inr (.inr rfl))⟩

/-- A responder of `ping` that has taken a request at time `1`. -/
def timedResponder : Ping.Ctx :=
  { (ping.create .responder).request 1 with own := { lastSeq := 0 } }

theorem reachable_timedResponder : ping.Reachable timedResponder := by
  have hfeed : ping.step (some (ping.create .responder))
      (.feedInputWithTs (some Ping.echoRequest) 1) = .ok (some timedResponder, .code 0) := rfl
  exact .call (.create .responder none) hfeed

/-- After a reset and a request without a time, the time that was left runs out. -/
theorem reset_keeps_timer :
    ping.Reachable timedResponder ∧ ¬ ping.ResetsLikeFresh timedResponder := by
  refine ⟨reachable_timedResponder, fun hlike => ?_⟩
  have hseen := hlike
    [.feedInput (some Ping.echoRequest), .process 2000, .nextEvent (some {})] (by simp)
  revert hseen
  decide

end Netdiag
