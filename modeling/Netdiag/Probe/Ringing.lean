import Netdiag.Probe.Alarm
import Netdiag.Probe.Hearing

/-!
# Ringing — the responders of the probe modules are alarms

For each module `bell` says what a request is to a responder, and what becomes of one that nobody
answers.  Dnsdiag takes every packet for a request, and forgets it.  No caller can tell a responder
from an alarm with this bell, whatever calls are made (`responder_is_alarm`), so packets without a
request can be left out of a run (`responders_hear_requests_only`).
-/

namespace Netdiag

open Lib
open Probe (Call Bell Event Role)

namespace Probe

variable {X : Type}

theorem not_requester {c : Ctx X} (h : c.role = .responder) : c.role ≠ .requester :=
  fun h' => by cases h.symm.trans h'

/-- A time that is kept twice. -/
theorem request_stamp (c : Ctx X) (ts : UInt64) : (c.stamp ts).request ts = c.request ts := by
  rw [Ctx.request, Ctx.request, Ctx.stamp, Ctx.stamp]
  by_cases hts : ts = 0 <;> simp only [hts, ne_eq, not_true, not_false_iff, if_true, if_false]

end Probe

namespace Ping

def bell : Bell where
  minLen := 8
  ask d := .ok (if IsEchoRequest d then some (be16At d 6).toUInt32 else none)
  keepsTimes := false
  rings := some fun number => { type := .pingTimeout, seq := number, reason := "timeout" }
  lossPct := Probe.loss

theorem rings : ping.Rings bell Own.lastSeq where
  minLen := rfl
  told := by
    intro c d ts hrole hlen
    have hnot := Probe.not_requester hrole
    refine ⟨fun n => ⟨n⟩, fun _ _ => rfl, ?_⟩
    show feedBody c d ts = (Except.ok (if IsEchoRequest d then _ else _)).map _
    -- A responder does not look at replies.
    rw [feedBody_eq hlen, fed, if_neg fun h => hnot h.2]
    by_cases hrequest : IsEchoRequest d
    · rw [if_pos ⟨hrequest, hrole⟩, if_pos hrequest]
      rfl
    · rw [if_neg fun h => hrequest h.1, if_neg hrequest]
      rfl
  rung := by
    intro c now event hevent hexpired
    cases hevent
    exact ⟨c.own, if_pos hexpired⟩
  calm h := if_neg (h.resolve_left fun hnone => by cases hnone)
  lossPct := rfl

end Ping

namespace Arping

def bell : Bell where
  minLen := 14
  ask d := .ok (if IsArp 1 d ∨ IsNdp 135 d then some 0 else none)
  keepsTimes := false
  rings := some fun _ => timeoutEvent
  lossPct := Probe.loss

theorem rings : arping.Rings bell fun _ => 0 where
  minLen := rfl
  told := by
    intro c d ts hrole hlen
    have hnot := Probe.not_requester hrole
    -- Only a requester copies a MAC.
    have hin : InBounds c d := fun hrole' => absurd hrole' hnot
    have hbody := feedBody_eq hlen hin ts
    rw [fed, if_neg fun h => hnot h.2, if_neg fun h => hnot h.2]
      at hbody
    by_cases hrequest : IsArp 1 d ∨ IsNdp 135 d
    · have hask : bell.ask d = .ok (some 0) := congrArg Except.ok (if_pos hrequest)
      rw [if_pos ⟨hrequest, hrole⟩] at hbody
      rw [hask]
      exact ⟨fun _ => (), fun n hn => (by cases hn; rfl), hbody⟩
    · have hask : bell.ask d = .ok none := congrArg Except.ok (if_neg hrequest)
      rw [if_neg fun h => hrequest h.1] at hbody
      rw [hask]
      exact ⟨fun _ => (), fun n hn => (by cases hn), hbody⟩
  rung := by
    intro c now event hevent hexpired
    cases hevent
    exact ⟨c.own, if_pos hexpired⟩
  calm h := if_neg (h.resolve_left fun hnone => by cases hnone)
  lossPct := rfl

end Arping

namespace Traceroute

/-- The number of a probe is read behind the packet if that ends in front of it, and so is the
type. -/
def ask (d : List UInt8) : Except Fault (Option UInt32) :=
  if d.length = 20 then .error (.outOfBounds 20)
  else if IsProbe d then
    if d.length ≤ 28 then .error (.outOfBounds 28)
    else if d.length = 29 then .error (.outOfBounds 29)
    else .ok (some (be16At d 28).toUInt32)
  else .ok none

def bell : Bell where
  minLen := 20
  ask := ask
  keepsTimes := true
  rings := some fun number =>
    { type := .tracerouteHop, seq := number, reason := "traceroute timeout" }
  lossPct _ _ := 0

theorem told {c : Ctx} {d : List UInt8} {ts : UInt64} (hrole : c.role = .responder)
    (hlen : 20 ≤ d.length) :
    feedBody c d ts = (ask d).map (c.told bell (fun n => { c.own with lastSeq := n }) ts) := by
  have hnot := Probe.not_requester hrole
  rw [ask]
  by_cases hend : d.length = 20
  · rw [if_pos hend, feedBody, rd_of_le (by omega : d.length ≤ 20)]
    rfl
  rw [if_neg hend, feedBody, rd_of_lt (by omega : 20 + 1 ≤ d.length)]
  show (if IsHopReply d ∧ c.role = .requester then _
    else if IsProbe d ∧ c.role = .responder then _ else _) = _
  rw [if_neg fun h => hnot h.2]
  by_cases hprobe : IsProbe d
  · rw [if_pos ⟨hprobe, hrole⟩, if_pos hprobe]
    -- The number is read byte by byte, so the first one that is lacking is named.
    split_ifs with hshort hlast
    · rw [rd16Be, rd_of_le hshort]
      rfl
    · rw [rd16Be, rd_of_lt (by omega : 28 + 1 ≤ d.length), rd_of_le (by omega : d.length ≤ 28 + 1)]
      rfl
    · rw [rd16Be_of_le (by omega : 28 + 2 ≤ d.length)]
      simp only [bind, Except.bind, pure, Except.pure, Probe.request_stamp]
      rfl
  · rw [if_neg fun h => hprobe h.1, if_neg hprobe]
    rfl

theorem rings : traceroute.Rings bell Own.lastSeq where
  minLen := rfl
  told hrole hlen := ⟨_, fun _ _ => rfl, told hrole hlen⟩
  rung := by
    intro c now event hevent hexpired
    cases hevent
    exact ⟨_, if_pos hexpired⟩
  calm h := if_neg (h.resolve_left fun hnone => by cases hnone)
  lossPct := rfl

end Traceroute

namespace Dnsdiag

def bell : Bell where
  minLen := 12
  ask d := .ok (some (be16At d 0).toUInt32)
  keepsTimes := true
  rings := none
  lossPct _ _ := 0

theorem rings : dnsdiag.Rings bell Own.lastSeq where
  minLen := rfl
  told := by
    intro c d ts hrole hlen
    have hnot := Probe.not_requester hrole
    refine ⟨fun n => ⟨n⟩, fun _ _ => rfl, ?_⟩
    show feedBody c d ts = _
    rw [feedBody_eq hlen, fed, if_neg fun h => hnot h.2,
      if_neg fun h => hnot h.2, if_pos hrole, Probe.request_stamp]
    rfl
  rung hevent := by cases hevent
  calm _ := rfl
  lossPct := rfl

end Dnsdiag

namespace Arprecon

def bell : Bell where
  minLen := 14
  ask d := .ok (if IsRequest d then some 0 else none)
  keepsTimes := false
  rings := some fun _ => timeoutEvent
  lossPct := Probe.loss

theorem rings : arprecon.Rings bell fun _ => 0 where
  minLen := rfl
  told := by
    intro c d ts hrole hlen
    have hnot := Probe.not_requester hrole
    have hin : InBounds c d := fun hrole' => absurd hrole' hnot
    have hbody := feedBody_eq hin ts
    rw [fed, if_neg fun h => hnot h.2] at hbody
    by_cases hrequest : IsRequest d
    · have hask : bell.ask d = .ok (some 0) := congrArg Except.ok (if_pos hrequest)
      rw [if_pos ⟨hrequest, hrole⟩] at hbody
      rw [hask]
      exact ⟨fun _ => c.own, fun n hn => (by cases hn; rfl), hbody⟩
    · have hask : bell.ask d = .ok none := congrArg Except.ok (if_neg hrequest)
      rw [if_neg fun h => hrequest h.1] at hbody
      rw [hask]
      exact ⟨fun _ => c.own, fun n hn => (by cases hn), hbody⟩
  rung := by
    intro c now event hevent hexpired
    cases hevent
    exact ⟨c.own, if_pos hexpired⟩
  calm h := if_neg (h.resolve_left fun hnone => by cases hnone)
  lossPct := rfl

end Arprecon

/-! ## All modules -/

namespace Probe

variable {X : Type} {m : Module X}

/-- No caller can tell the module's responders from alarms, whatever calls are made. -/
def Module.IsAlarm (m : Module X) (B : Bell) : Prop :=
  ∀ config calls, observe m.step (some (m.createWithConfig .responder config)) calls =
    observe (Alarm.step B) (.new (config.elim 8 Config.eventQueueSize)) calls

/-- Packets without a request change nothing in what the other calls return. -/
def Module.HearsRequestsOnly (m : Module X) (B : Bell) : Prop :=
  ∀ config calls,
    observeOf (Call.asks B) m.step (some (m.createWithConfig .responder config)) calls =
      observe m.step (some (m.createWithConfig .responder config)) (calls.filter (Call.asks B))

theorem Module.Rings.isAlarm {B : Bell} {number : X → UInt32} (h : m.Rings B number) :
    m.IsAlarm B :=
  fun config calls =>
    observe_eq_of_bisim h.step_inStep (Module.Rings.inStep_create config) calls

theorem Module.Rings.hearsRequestsOnly {B : Bell} {number : X → UInt32} (h : m.Rings B number) :
    m.HearsRequestsOnly B := by
  intro config calls
  have hnew : InStep number (some (m.createWithConfig .responder config)) _ :=
    Module.Rings.inStep_create config
  rw [observeOf_eq_of_bisim h.step_inStep hnew, Alarm.observeOf_asks]
  exact (h.isAlarm config _).symm

end Probe

open Ping (ping)
open Arping (arping)
open Traceroute (traceroute)
open Dnsdiag (dnsdiag)
open Arprecon (arprecon)

/-- The responders of all five modules are alarms. -/
theorem responder_is_alarm :
    ping.IsAlarm Ping.bell ∧ arping.IsAlarm Arping.bell ∧ traceroute.IsAlarm Traceroute.bell ∧
    dnsdiag.IsAlarm Dnsdiag.bell ∧ arprecon.IsAlarm Arprecon.bell :=
  ⟨Ping.rings.isAlarm, Arping.rings.isAlarm, Traceroute.rings.isAlarm, Dnsdiag.rings.isAlarm,
    Arprecon.rings.isAlarm⟩

/-- For responders of all five modules, packets without a request can be left out of a run, if
their time counts for nothing: the other calls return what they return without them. -/
theorem responders_hear_requests_only :
    ping.HearsRequestsOnly Ping.bell ∧ arping.HearsRequestsOnly Arping.bell ∧
    traceroute.HearsRequestsOnly Traceroute.bell ∧ dnsdiag.HearsRequestsOnly Dnsdiag.bell ∧
    arprecon.HearsRequestsOnly Arprecon.bell :=
  ⟨Ping.rings.hearsRequestsOnly, Arping.rings.hearsRequestsOnly,
    Traceroute.rings.hearsRequestsOnly, Dnsdiag.rings.hearsRequestsOnly,
    Arprecon.rings.hearsRequestsOnly⟩

end Netdiag
