import Netdiag.Print
import Netdiag.Probe.Image

/-!
# Lines — the events of the probe modules as text

`netdiag_event_to_string` writes type, number, latency and reason of an event, for the logs of
callers.  Most types have no name of their own there.  Still the lines of two events that a module
gives to its callers are the same only if the events are, except for the MAC, which no line
has (`lines_tell_events_apart`).
-/

namespace Netdiag
namespace Probe

open Lib

/-! ## The printer -/

/-- `t`, the name of the type. -/
def typeText : EventType → String
  | .pingReply => "PING_REPLY"
  | .pingTimeout => "PING_TIMEOUT"
  | .arpReply => "ARP_REPLY"
  | .arpDuplicate => "ARP_DUP"
  | .faultDetected => "FAULT"
  | _ => "NONE"

def lineFormat : List Piece :=
  [.arg, .lit " seq=".toList, .arg, .lit " lat=".toList, .arg, .lit " reason=".toList, .arg]

def lineArgs (ev : Event) : List (List Char) :=
  [(typeText ev.type).toList, decimal ev.seq.toNat, decimal ev.latencyMs.toNat, ev.reason.toList]

def line (ev : Event) : List Char :=
  fill lineFormat (lineArgs ev)

/-- `netdiag_event_to_string`: the array `buf` as it is afterwards, `none` for `NULL`. -/
def eventToString (ev : Option Event) (buf : Option (List Char)) (max : Nat) :
    Except Fault (Option (List Char)) :=
  match ev, buf with
  | some ev, some buf => do
      let buf ← snprintf buf max (line ev)
      return some buf
  | _, _ => return none

/-! ## Reading a line -/

theorem delimits_line (ev : Event) : Delimits lineFormat (lineArgs ev) := by
  have hname : ' ' ∉ (typeText ev.type).toList := by
    cases ev.type <;> decide
  exact ⟨hname, not_mem_decimal (by decide), not_mem_decimal (by decide), trivial⟩

theorem line_eq_iff {ev ev' : Event} :
    line ev = line ev' ↔ typeText ev.type = typeText ev'.type ∧ ev.seq = ev'.seq ∧
      ev.latencyMs = ev'.latencyMs ∧ ev.reason = ev'.reason := by
  constructor
  · intro h
    have hargs := fill_inj (delimits_line ev) (delimits_line ev') h
    simp only [lineArgs, List.cons.injEq, and_true] at hargs
    rcases hargs with ⟨htype, hseq, hlat, hreason⟩
    exact ⟨String.toList_inj.1 htype, UInt32.toNat_inj.1 (decimal_inj hseq),
      UInt32.toNat_inj.1 (decimal_inj hlat), String.toList_inj.1 hreason⟩
  · rintro ⟨htype, hseq, hlat, hreason⟩
    rw [line, line, lineArgs, lineArgs, htype, hseq, hlat, hreason]

theorem nul_not_mem_line {ev : Event} (h : nul ∉ ev.reason.toList) : nul ∉ line ev := by
  have hname : nul ∉ (typeText ev.type).toList := by
    cases ev.type <;> decide
  have hnumber : ∀ n, nul ∉ decimal n := fun n => not_mem_decimal (by decide)
  refine not_mem_fill (by decide) ?_
  simp only [lineArgs, List.forall_mem_cons, List.not_mem_nil, false_implies, implies_true,
    and_true]
  exact ⟨hname, hnumber _, hnumber _, h⟩

theorem length_line_le (ev : Event) : (line ev).length ≤ 50 + ev.reason.toList.length := by
  have hname : (typeText ev.type).toList.length ≤ 12 := by
    cases ev.type <;> decide
  have hseq : (decimal ev.seq.toNat).length ≤ 10 :=
    length_decimal_le (by decide) (ev.seq.toNat_lt.trans (by decide))
  have hlat : (decimal ev.latencyMs.toNat).length ≤ 10 :=
    length_decimal_le (by decide) (ev.latencyMs.toNat_lt.trans (by decide))
  have hall := length_fill_le lineFormat (lineArgs ev)
  have hliterals : (lineFormat.map fun p => p.text.length).sum = 18 := by decide
  simp only [lineArgs, List.map_cons, List.map_nil, List.sum_cons, List.sum_nil] at hall
  rw [line]
  dsimp only [lineArgs]
  omega

/-! ## The lines of given events -/

/-- The event, but for the MAC, which no line has. -/
def Event.withoutMac (ev : Event) : Event :=
  { ev with srcMac := Vector.replicate 6 0 }

/-- The line has room in an array of 69 characters. -/
def Event.Short (ev : Event) : Prop :=
  nul ∉ ev.reason.toList ∧ ev.reason.toList.length ≤ 18

/-- Any two events of the module, for whatever roles, have their lines written out in full into
arrays that are long enough, and the lines are the same only if the events are. -/
def Module.TellsApart {X : Type} (m : Module X) : Prop :=
  ∀ role role' ev ev', m.Gives role ev → m.Gives role' ev' →
    ∀ buf buf' max max', 69 ≤ max → max ≤ buf.length → 69 ≤ max' → max' ≤ buf'.length →
      ∃ out out', eventToString (some ev) (some buf) max = .ok (some out) ∧
        eventToString (some ev') (some buf') max' = .ok (some out') ∧
        (textOf out = textOf out' ↔ ev.withoutMac = ev'.withoutMac)

theorem eventToString_of_short {ev : Event} (h : ev.Short) {buf : List Char} {max : Nat}
    (hmin : 69 ≤ max) (hmax : max ≤ buf.length) :
    ∃ out, eventToString (some ev) (some buf) max = .ok (some out) ∧ textOf out = line ev := by
  have hlen := length_line_le ev
  have hshort := h.2
  rcases snprintf_of_le (by omega) hmax (nul_not_mem_line h.1) with ⟨out, hout, hprinted⟩
  refine ⟨out, ?_, hprinted.text_of_lt (by omega)⟩
  rw [eventToString, hout]
  rfl

/-- The event has nothing but what its line shows, and the MAC. -/
def Event.Shown (ev : Event) : Prop :=
  ev.withoutMac =
    { type := ev.type, seq := ev.seq, latencyMs := ev.latencyMs, reason := ev.reason }

/-- The rule for a module, from the shape of its events: the name and the reason tell the type. -/
theorem tellsApart_of_shape {X : Type} {m : Module X} {Shape : Role → Event → Prop}
    (typeOf : String → String → EventType)
    (hshape : ∀ role ev, m.Gives role ev → Shape role ev)
    (hshort : ∀ role ev, Shape role ev → ev.Short ∧ ev.Shown)
    (htype : ∀ role ev, Shape role ev → typeOf (typeText ev.type) ev.reason = ev.type) :
    m.TellsApart := by
  intro role role' ev ev' hgives hgives' buf buf' max max' hmin hmax hmin' hmax'
  have hev := hshape role ev hgives
  have hev' := hshape role' ev' hgives'
  rcases hshort role ev hev with ⟨hlong, hshown⟩
  rcases hshort role' ev' hev' with ⟨hlong', hshown'⟩
  rcases eventToString_of_short hlong hmin hmax with ⟨out, hout, htext⟩
  rcases eventToString_of_short hlong' hmin' hmax' with ⟨out', hout', htext'⟩
  refine ⟨out, out', hout, hout', ?_⟩
  rw [htext, htext', line_eq_iff]
  constructor
  · rintro ⟨hname, hseq, hlat, hreason⟩
    -- Types without a name share one text: the reason tells them apart.
    have hsame : ev.type = ev'.type := by
      rw [← htype role ev hev, ← htype role' ev' hev', hname, hreason]
    rw [hshown, hshown', hsame, hseq, hlat, hreason]
  · intro hsame
    rw [hshown, hshown', Event.mk.injEq] at hsame
    rcases hsame with ⟨hsame, hseq, hlat, -, -, -, -, hreason, -⟩
    exact ⟨congrArg typeText hsame, hseq, hlat, hreason⟩

end Probe

open Lib
open Probe (Role Event EventType)

/-! ## The five modules -/

namespace Ping

theorem short_of_shape {role : Role} {ev : Event} (h : Shape role ev) : ev.Short ∧ ev.Shown := by
  have hclosed : nul ∉ "timeout".toList ∧ "timeout".toList.length ≤ 18 := by decide
  cases role with
  | requester =>
      rcases h with ⟨seq, rfl⟩
      exact ⟨⟨List.not_mem_nil, Nat.zero_le _⟩, rfl⟩
  | responder =>
      rcases h with ⟨seq, rfl⟩
      exact ⟨hclosed, rfl⟩

def typeOf (name _ : String) : EventType :=
  if name = "PING_REPLY" then .pingReply else .pingTimeout

theorem typeOf_of_shape {role : Role} {ev : Event} (h : Shape role ev) :
    typeOf (Probe.typeText ev.type) ev.reason = ev.type := by
  cases role <;> rcases h with ⟨seq, rfl⟩ <;> rfl

end Ping

namespace Arping

theorem short_of_shape {role : Role} {ev : Event} (h : Shape role ev) : ev.Short ∧ ev.Shown := by
  cases role with
  | requester =>
      rcases h with ⟨mac, rfl⟩
      exact ⟨⟨List.not_mem_nil, Nat.zero_le _⟩, rfl⟩
  | responder =>
      cases h
      exact ⟨⟨by decide, by decide⟩, rfl⟩

def typeOf (name _ : String) : EventType :=
  if name = "ARP_REPLY" then .arpReply else .arpDuplicate

theorem typeOf_of_shape {role : Role} {ev : Event} (h : Shape role ev) :
    typeOf (Probe.typeText ev.type) ev.reason = ev.type := by
  cases role with
  | requester =>
      rcases h with ⟨mac, rfl⟩
      rfl
  | responder =>
      cases h
      rfl

end Arping

namespace Arprecon

theorem short_of_shape {role : Role} {ev : Event} (h : Shape role ev) : ev.Short ∧ ev.Shown := by
  cases role with
  | requester =>
      rcases h with ⟨mac, rfl⟩ | rfl
      · exact ⟨⟨List.not_mem_nil, Nat.zero_le _⟩, rfl⟩
      · exact ⟨⟨by decide, by decide⟩, rfl⟩
  | responder =>
      cases h
      exact ⟨⟨by decide, by decide⟩, rfl⟩

/-- Two types have no name, and the reason tells which it is. -/
def typeOf (name reason : String) : EventType :=
  if name = "ARP_REPLY" then .arpReply
  else if reason = "spoof detected" then .arpSpoof
  else .arpAnomaly

theorem typeOf_of_shape {role : Role} {ev : Event} (h : Shape role ev) :
    typeOf (Probe.typeText ev.type) ev.reason = ev.type := by
  cases role with
  | requester => rcases h with ⟨mac, rfl⟩ | rfl <;> rfl
  | responder =>
      cases h
      rfl

end Arprecon

namespace Traceroute

theorem short_of_shape {role : Role} {ev : Event} (h : Shape role ev) : ev.Short ∧ ev.Shown := by
  have hclosed : nul ∉ "traceroute timeout".toList ∧
      "traceroute timeout".toList.length ≤ 18 := by
    decide
  cases role with
  | requester =>
      rcases h with ⟨lat, _, rfl⟩
      exact ⟨⟨List.not_mem_nil, Nat.zero_le _⟩, rfl⟩
  | responder =>
      rcases h with ⟨seq, rfl⟩
      exact ⟨hclosed, rfl⟩

theorem type_of_shape {role : Role} {ev : Event} (h : Shape role ev) :
    Probe.EventType.tracerouteHop = ev.type := by
  cases role with
  | requester =>
      rcases h with ⟨lat, _, rfl⟩
      rfl
  | responder =>
      rcases h with ⟨seq, rfl⟩
      rfl

end Traceroute

namespace Dnsdiag

theorem short_reason {rcode : UInt16} (h : rcode < 16) :
    nul ∉ s!"DNS rcode={rcode}".toList ∧ s!"DNS rcode={rcode}".toList.length ≤ 18 := by
  have hclosed : ∀ n < 16, nul ∉ s!"DNS rcode={UInt16.ofNat n}".toList ∧
      s!"DNS rcode={UInt16.ofNat n}".toList.length ≤ 18 := by
    decide
  have hrcode := hclosed rcode.toNat (UInt16.lt_iff_toNat_lt.1 h)
  rwa [UInt16.ofNat_toNat] at hrcode

theorem short_of_shape {role : Role} {ev : Event} (h : Shape role ev) : ev.Short ∧ ev.Shown := by
  cases role with
  | requester =>
      rcases h with ⟨rcode, _, hlt, rfl⟩ | ⟨lat, _, rfl⟩
      · exact ⟨short_reason hlt, rfl⟩
      · exact ⟨⟨List.not_mem_nil, Nat.zero_le _⟩, rfl⟩
  | responder => exact h.elim

def typeOf (name _ : String) : EventType :=
  if name = "FAULT" then .faultDetected else .dnsReply

theorem typeOf_of_shape {role : Role} {ev : Event} (h : Shape role ev) :
    typeOf (Probe.typeText ev.type) ev.reason = ev.type := by
  cases role with
  | requester => rcases h with ⟨rcode, _, _, rfl⟩ | ⟨lat, _, rfl⟩ <;> rfl
  | responder => exact h.elim

end Dnsdiag

open Ping (ping)
open Arping (arping)
open Traceroute (traceroute)
open Dnsdiag (dnsdiag)
open Arprecon (arprecon)

/-- For each of the five modules, two events that a caller can be given print the same line only
if they are the same but for the MAC. -/
theorem lines_tell_events_apart : ping.TellsApart ∧ arping.TellsApart ∧ arprecon.TellsApart ∧
    traceroute.TellsApart ∧ dnsdiag.TellsApart := by
  refine ⟨?_, ?_, ?_, ?_, ?_⟩
  · exact Probe.tellsApart_of_shape Ping.typeOf (fun _ _ => Ping.shape_of_gives)
      (fun _ _ => Ping.short_of_shape) fun _ _ => Ping.typeOf_of_shape
  · exact Probe.tellsApart_of_shape Arping.typeOf (fun _ _ => Arping.shape_of_gives)
      (fun _ _ => Arping.short_of_shape) fun _ _ => Arping.typeOf_of_shape
  · exact Probe.tellsApart_of_shape Arprecon.typeOf (fun _ _ => Arprecon.shape_of_gives)
      (fun _ _ => Arprecon.short_of_shape) fun _ _ => Arprecon.typeOf_of_shape
  · exact Probe.tellsApart_of_shape (fun _ _ => .tracerouteHop)
      (fun _ _ => Traceroute.shape_of_gives) (fun _ _ => Traceroute.short_of_shape)
      fun _ _ => Traceroute.type_of_shape
  · exact Probe.tellsApart_of_shape Dnsdiag.typeOf (fun _ _ => Dnsdiag.shape_of_gives)
      (fun _ _ => Dnsdiag.short_of_shape) fun _ _ => Dnsdiag.typeOf_of_shape

end Netdiag
