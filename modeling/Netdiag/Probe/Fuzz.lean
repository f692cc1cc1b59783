import Netdiag.Probe.Packets

/-!
# Fuzz — what the fuzzing harness can find

`LLVMFuzzerTestOneInput` hands its input to a new requester of each of three modules, and a read
outside of the input is what the sanitizer reports.  New contexts are enough: whether a requester
reads outside of a packet depends on neither its state nor the time, so the harness reports an
input exactly if some requester reads outside of it.  What it cannot find is a responder of
traceroute that reads behind the end of a probe (`fuzz_finds_requesters`).
-/

namespace Netdiag

open Lib
open Probe (Role)
open Ping (ping)
open Arping (arping)
open Traceroute (traceroute)

namespace Fuzz

/-- `LLVMFuzzerTestOneInput`.  The variable `ev` is not initialized; neither the events that are
written to it nor the contexts are looked at afterwards. -/
def testOneInput (ev : Probe.Event) (data : List UInt8) : Except Fault Int := do
  let (_, p) ← ping.feedInput (some (ping.create .requester)) (some data)
  let _ := Probe.Ctx.nextEvent p (some ev)
  let (_, a) ← arping.feedInput (some (arping.create .requester)) (some data)
  let _ := Probe.Ctx.nextEvent a (some ev)
  let (_, t) ← traceroute.feedInput (some (traceroute.create .requester)) (some data)
  let _ := Probe.Ctx.nextEvent t (some ev)
  return 0

/-- The inputs that no requester reads outside of. -/
def Contained (data : List UInt8) : Prop :=
  data.length ≠ 20 ∧ (Arping.IsArp 2 data → 28 ≤ data.length) ∧
    (Arping.IsNdp 136 data → data.length ≠ 71)

instance (data : List UInt8) : Decidable (Contained data) :=
  inferInstanceAs (Decidable (_ ∧ _))

/-! ## Requesters -/

theorem ping_readsInside (c : Ping.Ctx) (data : List UInt8) (ts : UInt64) :
    ping.ReadsInside c data ts :=
  (Probe.readsInside_iff (m := ping) (fun _ => trivial)
    (fun hlen _ => ⟨_, Ping.feedBody_eq hlen c ts⟩) (fun _ hout => absurd trivial hout)).2 trivial

theorem arping_readsInside_iff {c : Arping.Ctx} (hrole : c.role = .requester)
    (data : List UInt8) (ts : UInt64) : arping.ReadsInside c data ts ↔
      (Arping.IsArp 2 data → 28 ≤ data.length) ∧ (Arping.IsNdp 136 data → data.length ≠ 71) :=
  Probe.readsInside_iff (m := arping) (fun hlen => Arping.inBounds_of_short (c := c) hlen hrole)
    (fun hlen hin => ⟨_, Arping.feedBody_eq hlen (fun _ => hin) ts⟩)
    (fun hlen hout => Arping.feedBody_of_not_inBounds hlen (fun hin => hout (hin hrole)) ts)

/-- A context of any role reads inside, but for the type of a packet that ends in front of it and
the sequence number that a responder reads of a probe. -/
theorem traceroute_readsInside_iff (c : Traceroute.Ctx) (data : List UInt8) (ts : UInt64) :
    traceroute.ReadsInside c data ts ↔ Traceroute.InBounds c data :=
  Probe.readsInside_iff (m := traceroute) Traceroute.inBounds_of_short
    (fun hlen hin => ⟨_, Traceroute.feedBody_eq hlen hin ts⟩)
    (fun hlen hout => Traceroute.feedBody_of_not_inBounds hlen hout ts)

theorem inBounds_iff_of_requester {c : Traceroute.Ctx} (hrole : c.role = .requester)
    (data : List UInt8) : Traceroute.InBounds c data ↔ data.length ≠ 20 := by
  refine ⟨And.left, fun h => ⟨h, fun _ hresponder => ?_⟩⟩
  rw [hrole] at hresponder
  cases hresponder

/-- Requesters of the three modules, in whatever states. -/
theorem contained_iff (pc : Ping.Ctx) {ac : Arping.Ctx} {tc : Traceroute.Ctx}
    (hac : ac.role = .requester) (htc : tc.role = .requester) (data : List UInt8) (ts : UInt64) :
    Contained data ↔ ping.ReadsInside pc data ts ∧ arping.ReadsInside ac data ts ∧
      traceroute.ReadsInside tc data ts := by
  rw [arping_readsInside_iff hac, traceroute_readsInside_iff, inBounds_iff_of_requester htc,
    and_iff_right (ping_readsInside pc data ts), and_comm]
  rfl

/-! ## The harness -/

theorem testOneInput_eq_iff_readsInside (ev : Probe.Event) (data : List UInt8) :
    testOneInput ev data = .ok 0 ↔ ping.ReadsInside (ping.create .requester) data 0 ∧
      arping.ReadsInside (arping.create .requester) data 0 ∧
      traceroute.ReadsInside (traceroute.create .requester) data 0 := by
  rw [testOneInput, Probe.Module.feedInput, Probe.Module.feedInput, Probe.Module.feedInput,
    Probe.Module.ReadsInside, Probe.Module.ReadsInside, Probe.Module.ReadsInside]
  -- The harness goes on for as long as the calls return.
  have hfault : ∀ {e : Fault} {r : Int}, Except.error e ≠ .ok r := by
    intro e r h
    cases h
  cases ping.feedInputWithTs (some (ping.create .requester)) (some data) 0 with
  | error e =>
      refine iff_of_false hfault ?_
      rintro ⟨⟨p, hp⟩, _⟩
      cases hp
  | ok p =>
      cases arping.feedInputWithTs (some (arping.create .requester)) (some data) 0 with
      | error e =>
          refine iff_of_false hfault ?_
          rintro ⟨_, ⟨a, ha⟩, _⟩
          cases ha
      | ok a =>
          cases traceroute.feedInputWithTs (some (traceroute.create .requester)) (some data) 0 with
          | error e =>
              refine iff_of_false hfault ?_
              rintro ⟨_, _, t, ht⟩
              cases ht
          | ok t => exact iff_of_true rfl ⟨⟨p, rfl⟩, ⟨a, rfl⟩, t, rfl⟩

theorem testOneInput_eq_iff (ev : Probe.Event) (data : List UInt8) :
    testOneInput ev data = .ok 0 ↔ Contained data := by
  have harping : (arping.create .requester).role = .requester := rfl
  have htraceroute : (traceroute.create .requester).role = .requester := rfl
  rw [testOneInput_eq_iff_readsInside, contained_iff (ping.create .requester) harping htraceroute]

end Fuzz

/-- The harness passes an input exactly if it has none of the lengths and types that requesters
read outside of, and exactly if no requester of ping, arping and traceroute does, whatever its
state and the time.  A responder of traceroute may still read outside of an input that passes: it
does exactly with the probes that end before their sequence number. -/
theorem fuzz_finds_requesters (ev : Probe.Event) (data : List UInt8) :
    (Fuzz.testOneInput ev data = .ok 0 ↔ data.length ≠ 20 ∧
      (Arping.IsArp 2 data → 28 ≤ data.length) ∧ (Arping.IsNdp 136 data → data.length ≠ 71)) ∧
    (Fuzz.testOneInput ev data = .ok 0 ↔
      ∀ (pc : Ping.Ctx) (ac : Arping.Ctx) (tc : Traceroute.Ctx) (ts : UInt64),
        pc.role = .requester → ac.role = .requester → tc.role = .requester →
          ping.ReadsInside pc data ts ∧ arping.ReadsInside ac data ts ∧
            traceroute.ReadsInside tc data ts) ∧
    ∀ (tc : Traceroute.Ctx) (ts : UInt64), Fuzz.testOneInput ev data = .ok 0 →
      (traceroute.ReadsInside tc data ts ↔
        ¬ (tc.role = .responder ∧ Traceroute.IsProbe data ∧ data.length < 30)) := by
  refine ⟨Fuzz.testOneInput_eq_iff ev data, ?_, ?_⟩
  · rw [Fuzz.testOneInput_eq_iff]
    constructor
    · intro h pc ac tc ts _ hac htc
      exact (Fuzz.contained_iff pc hac htc data ts).1 h
    · intro h
      exact (Fuzz.contained_iff _ rfl rfl data 0).2 (h (ping.create .requester)
        (arping.create .requester) (traceroute.create .requester) 0 rfl rfl rfl)
  · intro tc ts hpass
    have hne := ((Fuzz.testOneInput_eq_iff ev data).1 hpass).1
    rw [Fuzz.traceroute_readsInside_iff, Traceroute.InBounds, and_iff_right hne]
    constructor
    · rintro h ⟨hrole, hprobe, hlen⟩
      exact absurd (h hprobe hrole) (Nat.not_le_of_lt hlen)
    · intro h hprobe hrole
      exact Nat.le_of_not_lt fun hlen => h ⟨hrole, hprobe, hlen⟩

end Netdiag
