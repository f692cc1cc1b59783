import Netdiag.Lib.Meter
import Netdiag.Probe.Books
import Netdiag.Probe.Reset

/-!
# Averages — the latencies that the statistics are made of

Of the replies since its creation or last reset a context keeps a meter of their latencies.  The
least and the greatest latency are always right.  The mean is right as long as the sum of the
latencies fits into a 32-bit word (`latency_stats_iff`).
-/

namespace Netdiag
namespace Probe

open Lib

variable {X : Type}

/-! ## The meter of a context -/

/-- The latencies assigned to the replies among the events. -/
def latencies (kind : Event → Option Counter) (es : List Event) : List UInt32 :=
  (es.filter fun e => kind e = some .replies).map Event.latencyMs

def Ctx.meter (c : Ctx X) : Meter :=
  { sum := c.sumLat, count := c.countLat, max := c.maxLat, min := c.minLat }

/-- The statistics tell the least, the greatest and the mean of the latencies. -/
structure Faithful (s : Stats) (vs : List UInt32) : Prop where
  least : (vs.map UInt32.toNat).min? = some s.minLatencyMs.toNat
  greatest : (vs.map UInt32.toNat).max? = some s.maxLatencyMs.toNat
  mean : s.avgLatencyMs.toNat = total vs / vs.length

theorem latencies_append (kind : Event → Option Counter) (es fs : List Event) :
    latencies kind (es ++ fs) = latencies kind es ++ latencies kind fs := by
  rw [latencies, List.filter_append, List.map_append]
  rfl

theorem latencies_singleton {kind : Event → Option Counter} {ev : Event} {k : Counter}
    (h : kind ev = some k) :
    latencies kind [ev] = if k = .replies then [ev.latencyMs] else [] := by
  rw [latencies, List.filter_singleton, h]
  cases k <;> rfl

theorem mem_latencies {kind : Event → Option Counter} {es : List Event} {v : UInt32} :
    v ∈ latencies kind es ↔ ∃ e ∈ es, kind e = some .replies ∧ e.latencyMs = v := by
  simp only [latencies, List.mem_map, List.mem_filter, decide_eq_true_eq, and_assoc]

/-- The step lemma: a posting shows the meter the latencies of its events. -/
theorem Posting.meter {kind : Event → Option Counter} {c c' : Ctx X} {es : List Event}
    (h : Posting kind c c' es) : c'.meter = (latencies kind es).foldl Meter.note c.meter := by
  induction h with
  | same c => rfl
  | stamp c ts => rfl
  | request c ts own => rfl
  | reply own hkind =>
      rw [latencies_singleton hkind]
      rfl
  | timeout own hkind =>
      rw [latencies_singleton hkind]
      rfl
  | @dups c es n own _ hkind =>
      have hnone : latencies kind es = [] := by
        refine List.map_eq_nil_iff.2 (List.filter_eq_nil_iff.2 fun e he => ?_)
        simp [hkind e he]
      rw [hnone]
      rfl
  | trans _ _ ih ih' => rw [ih', ih, latencies_append, List.foldl_append]

variable {m : Module X} {kind : Event → Option Counter} {events : Ctx X → Call → List Event}

/-- The run lemma: the meter has been shown the latencies since the last reset. -/
theorem Module.Since.meter_eq (hposts : m.Posts kind events)
    (haside : ∀ c c', m.aside c c' → c'.meter = c.meter) {c : Ctx X} {es : List Event}
    (h : m.Since events c es) : c.meter = Meter.of (latencies kind es) := by
  refine h.invariant (J := fun c es => c.meter = Meter.of (latencies kind es)) ?_ ?_ ?_
  · intro role r sendTs own s
    rfl
  · intro c es call c' r _ ih hne hstep
    rw [latencies_append, Meter.of_append, ← ih]
    rcases call.plain_or with hplain | ⟨e, rfl⟩ | hreset
    -- Only the plain calls post events; a reset starts a new record.
    · exact (hposts.plain hplain hstep).meter
    · -- Taking an event changes the queue only.
      cases hstep
      rw [hposts.next]
      rfl
    · exact absurd hreset hne
  · intro c c' es ih hside
    rw [haside c c' hside, ih]

/-! ## What the statistics tell -/

theorem Faithful.ordered {c : Ctx X} {lossPct : UInt32} {vs : List UInt32} (hne : vs ≠ [])
    (h : Faithful (c.stats lossPct) vs) :
    (c.stats lossPct).minLatencyMs ≤ (c.stats lossPct).avgLatencyMs ∧
      (c.stats lossPct).avgLatencyMs ≤ (c.stats lossPct).maxLatencyMs := by
  have hleast := Option.some.inj ((Meter.min?_eq hne).symm.trans h.least)
  have hgreatest := Option.some.inj ((Meter.max?_eq hne).symm.trans h.greatest)
  have hbetween := Meter.mean_between hne
  rw [hleast, hgreatest, ← h.mean] at hbetween
  exact ⟨UInt32.le_iff_toNat_le.2 hbetween.1, UInt32.le_iff_toNat_le.2 hbetween.2⟩

/-- One latency below the greatest word is enough for the least to be told. -/
theorem faithful_iff {c : Ctx X} {vs : List UInt32} (hne : vs ≠ [])
    (hmeter : c.meter = Meter.of vs) (hlow : ∀ v ∈ vs, v ≤ 5) (lossPct : UInt32) :
    Faithful (c.stats lossPct) vs ↔ Meter.Fits vs := by
  have hmean : (c.stats lossPct).avgLatencyMs = (Meter.of vs).mean := by
    rw [← hmeter]
    rfl
  have hleast : (c.stats lossPct).minLatencyMs = (Meter.of vs).least := by
    rw [← hmeter]
    rfl
  have hgreatest : (c.stats lossPct).maxLatencyMs = (Meter.of vs).max := by
    rw [← hmeter]
    rfl
  have hmin : (Meter.of vs).min.toNat ∈ vs.map UInt32.toNat :=
    (List.min?_eq_some_iff.1 (Meter.min?_eq hne)).1
  rcases List.mem_map.1 hmin with ⟨v, hv, hword⟩
  have hsmall : (Meter.of vs).min ≠ 0xFFFFFFFF := by
    rw [← UInt32.toNat_inj.1 hword]
    intro hlast
    have hfive := hlow v hv
    rw [hlast] at hfive
    exact absurd hfive (by decide)
  have htold : (Meter.of vs).least = (Meter.of vs).min := if_neg hsmall
  rw [← Meter.toNat_mean_of_iff hne, ← hmean]
  constructor
  · exact fun h => h.mean
  · intro h
    refine ⟨?_, ?_, h⟩
    · rw [hleast, htold]
      exact Meter.min?_eq hne
    · rw [hgreatest]
      exact Meter.max?_eq hne

/-- After a reply, the statistics of a context tell the latencies since its last reset exactly if
sum and number of the latencies fit, and then they are in order. -/
def Module.TellsLatencies (m : Module X) (kind : Event → Option Counter)
    (events : Ctx X → Call → List Event) (c : Ctx X) (es : List Event) : Prop :=
  m.Since events c es → latencies kind es ≠ [] →
    (Faithful (c.stats (m.lossPct c)) (latencies kind es) ↔ Meter.Fits (latencies kind es)) ∧
    (Meter.Fits (latencies kind es) →
      (c.stats (m.lossPct c)).minLatencyMs ≤ (c.stats (m.lossPct c)).avgLatencyMs ∧
      (c.stats (m.lossPct c)).avgLatencyMs ≤ (c.stats (m.lossPct c)).maxLatencyMs)

/-- The rule for a module, all of whose replies are at most five milliseconds late. -/
theorem tellsLatencies_of_posts (hposts : m.Posts kind events)
    (haside : ∀ c c', m.aside c c' → c'.meter = c.meter)
    (hlow : ∀ c call, m.Reachable c → ∀ e ∈ events c call, kind e = some .replies →
      e.latencyMs ≤ 5) (c : Ctx X) (es : List Event) : m.TellsLatencies kind events c es := by
  intro hsince hne
  have hall : ∀ v ∈ latencies kind es, v ≤ 5 := by
    intro v hv
    rcases mem_latencies.1 hv with ⟨e, he, hreply, rfl⟩
    exact hsince.forall_mem hlow e he hreply
  have hiff := faithful_iff hne (hsince.meter_eq hposts haside) hall (m.lossPct c)
  exact ⟨hiff, fun hfits => (hiff.2 hfits).ordered hne⟩

/-- What holds of the events of a packet and of the time holds of the events of a call. -/
theorem Call.forall_mem_events {packet : List UInt8 → UInt64 → List Event}
    {time : UInt64 → List Event} {Good : Event → Prop} (hpacket : ∀ d ts, ∀ e ∈ packet d ts, Good e)
    (htime : ∀ ts, ∀ e ∈ time ts, Good e) (call : Call) :
    ∀ e ∈ call.events packet time, Good e := by
  have hnone : ∀ e ∈ ([] : List Event), Good e := by
    intro e he
    cases he
  cases call with
  | feedInput d =>
      cases d with
      | none => exact hnone
      | some d => exact hpacket d 0
  | feedInputWithTs d ts =>
      cases d with
      | none => exact hnone
      | some d => exact hpacket d ts
  | process ts => exact htime ts
  | nextEvent e => exact hnone
  | getStats s => exact hnone
  | reset => exact hnone

theorem eq_of_mem_expiry {c : Ctx X} {ev e : Event} {ts : UInt64}
    (h : e ∈ (c.expiry ev ts).toList) : e = ev := by
  rw [Ctx.expiry] at h
  split_ifs at h
  · exact List.mem_singleton.1 h
  · cases h

/-- A context that has no time takes the latency to be 5. -/
theorem latency_of_untimed {c : Ctx X} (h : c.sendTs = 0) (ts : UInt64) : c.latency ts = 5 :=
  if_neg fun hset => hset.1 h

end Probe

/-! ## The modules -/

open Lib
open Probe (Role Event Call)
open Ping (ping)
open Arping (arping)
open Arprecon (arprecon)
open Traceroute (traceroute)

theorem Ping.latency_le {c : Ping.Ctx} {call : Call} (h : ping.Reachable c) :
    ∀ e ∈ Ping.events c call, Ping.kind e = some .replies → e.latencyMs ≤ 5 := by
  apply Probe.Call.forall_mem_events
  · intro d ts e he _
    rw [packetEvent] at he
    split_ifs at he with hreply
    · rw [List.mem_singleton.1 he]
      have huntimed := Probe.latency_of_untimed (sendTs_of_requester h hreply.2.2) ts
      exact huntimed.symm ▸ UInt32.le_refl 5
    · cases he
  · intro ts e he hkind
    rw [Probe.eq_of_mem_expiry he] at hkind
    cases hkind

theorem Arping.latency_le {c : Arping.Ctx} {call : Call} (h : arping.Reachable c) :
    ∀ e ∈ Arping.events c call, Arping.kind e = some .replies → e.latencyMs ≤ 5 := by
  apply Probe.Call.forall_mem_events
  · intro d ts e he _
    have huntimed : c.role = .requester → c.latency ts ≤ 5 := fun hrole =>
      (Probe.latency_of_untimed (sendTs_of_requester h hrole) ts).symm ▸ UInt32.le_refl 5
    rw [packetEvent, Option.mem_toList, Option.or_eq_some_iff] at he
    -- A reply and an advertisement have the same latency.
    rcases he with harp | ⟨_, hndp⟩
    · rw [arpEvent] at harp
      split_ifs at harp with hreply
      cases harp
      exact huntimed hreply.2.2.2.2
    · rw [ndpEvent] at hndp
      split_ifs at hndp with hreply
      · cases hndp
        exact huntimed hreply.2.2.2.2
      · cases hndp
        exact huntimed hreply.2.2.2.2
  · intro ts e he hkind
    rw [Probe.eq_of_mem_expiry he] at hkind
    cases hkind

theorem Arprecon.latency_le {c : Arprecon.Ctx} {call : Call} (h : arprecon.Reachable c) :
    ∀ e ∈ Arprecon.events c call, Arprecon.kind e = some .replies → e.latencyMs ≤ 5 := by
  apply Probe.Call.forall_mem_events
  · intro d ts e he hkind
    rw [packetEvents] at he
    split_ifs at he with hreply
    · rcases List.mem_cons.1 he with rfl | hspoof
      · have huntimed := Probe.latency_of_untimed (sendTs_of_requester h hreply.2) ts
        exact huntimed.symm ▸ UInt32.le_refl 5
      · rw [List.eq_of_mem_replicate hspoof] at hkind
        cases hkind
    · cases he
  · intro ts e he hkind
    rw [Probe.eq_of_mem_expiry he] at hkind
    cases hkind

/-- Traceroute measures from the reply's own time. -/
theorem Traceroute.latency_le (c : Traceroute.Ctx) (call : Call) :
    ∀ e ∈ Traceroute.events c call, Traceroute.kind e = some .replies → e.latencyMs ≤ 5 := by
  apply Probe.Call.forall_mem_events
  · intro d ts e he _
    rw [packetEvent] at he
    split_ifs at he
    · rw [List.mem_singleton.1 he]
      show (c.stamp ts).latency ts ≤ 5
      rw [Probe.latency_stamp]
      split_ifs <;> decide
    · cases he
  · intro ts e he hkind
    rw [Probe.eq_of_mem_expiry he] at hkind
    cases hkind

/-- A record for a hop is no latency of a reply. -/
theorem Traceroute.meter_of_aside {c c' : Traceroute.Ctx} (h : traceroute.aside c c') :
    c'.meter = c.meter := by
  rcases h with ⟨hop, success, latencyMs, h⟩
  rw [recordHop, Option.map_some] at h
  split_ifs at h <;> cases h <;> rfl

/-- The latencies that ping, arping, arprecon and traceroute report are those of their replies
exactly if sum and number of these fit. -/
theorem latency_stats_iff (pc : Ping.Ctx) (ac : Arping.Ctx) (rc : Arprecon.Ctx)
    (tc : Traceroute.Ctx) (es : List Probe.Event) :
    ping.TellsLatencies Ping.kind Ping.events pc es ∧
    arping.TellsLatencies Arping.kind Arping.events ac es ∧
    arprecon.TellsLatencies Arprecon.kind Arprecon.events rc es ∧
    traceroute.TellsLatencies Traceroute.kind Traceroute.events tc es := by
  refine ⟨?_, ?_, ?_, ?_⟩
  · exact Probe.tellsLatencies_of_posts Ping.posts (fun _ _ h => h.elim)
      (fun _ _ h => Ping.latency_le h) pc es
  · exact Probe.tellsLatencies_of_posts Arping.posts (fun _ _ h => h.elim)
      (fun _ _ h => Arping.latency_le h) ac es
  · exact Probe.tellsLatencies_of_posts Arprecon.posts (fun _ _ h => h.elim)
      (fun _ _ h => Arprecon.latency_le h) rc es
  · exact Probe.tellsLatencies_of_posts Traceroute.posts
      (fun _ _ h => Traceroute.meter_of_aside h)
      (fun c call _ => Traceroute.latency_le c call) tc es

/-! ## Many replies -/

namespace Ping

/-- Replies without a time, one after the other, have a latency of five each. -/
theorem since_echoReplies (n : Nat) :
    ∃ c es, ping.play (some (ping.create .requester))
        (List.replicate n (.feedInput (some (List.replicate 8 0)))) = .ok (some c) ∧
      c.role = .requester ∧ ping.Since events c es ∧
      Probe.latencies kind es = List.replicate n 5 := by
  induction n with
  | zero => exact ⟨_, [], rfl, rfl, .create .requester none, rfl⟩
  | succ n ih =>
      rcases ih with ⟨c, es, hplay, hrole, hsince, hlats⟩
      have hlen : 8 ≤ (List.replicate 8 0).length := by decide
      have hreply : IsEchoReply (List.replicate 8 0) := by decide
      have hstep : ping.step (some c) (.feedInput (some (List.replicate 8 0))) =
          .ok (some (fed c (List.replicate 8 0) 0), .code 0) :=
        Probe.Module.step_of_body (.inr ⟨rfl, rfl⟩) hlen (feedBody_eq hlen c 0)
      have hevents : events c (.feedInput (some (List.replicate 8 0))) =
          [{ type := .pingReply, seq := 0, latencyMs := 5 }] := by
        have huntimed := Probe.latency_of_untimed (sendTs_of_requester hsince.reachable hrole) 0
        show (packetEvent c (List.replicate 8 0) 0).toList = _
        rw [packetEvent, if_pos ⟨hlen, hreply.2, hrole⟩, huntimed]
        rfl
      refine ⟨fed c (List.replicate 8 0) 0, _, ?_, ?_, hsince.call (fun h => by cases h) hstep, ?_⟩
      · rw [List.replicate_succ', Probe.Module.play_append, hplay]
        exact congrArg (· >>= fun x => .ok x.1) hstep
      · rw [fed, if_pos ⟨hreply, hrole⟩]
        exact hrole
      · rw [hevents, Probe.latencies_append, hlats, List.replicate_succ']
        rfl

end Ping

/-- Three answers to a requester of traceroute.  The second one comes with a time, which is taken to
be that of its probe. -/
def threeAnswers : List Probe.Call :=
  [.feedInput (some (List.replicate 20 0 ++ [11])),
    .feedInputWithTs (some (List.replicate 20 0 ++ [11])) 9,
    .feedInput (some (List.replicate 20 0 ++ [3]))]

theorem latency_stats_threeAnswers :
    ∃ c es, traceroute.play (some (traceroute.create .requester)) threeAnswers = .ok (some c) ∧
      traceroute.Since Traceroute.events c es ∧
      Probe.latencies Traceroute.kind es = [5, 0, 5] ∧
      Probe.Faithful (c.stats (traceroute.lossPct c)) (Probe.latencies Traceroute.kind es) ∧
      (c.stats (traceroute.lossPct c)).avgLatencyMs = 3 := by
  have hplay : traceroute.play (some (traceroute.create .requester)) threeAnswers =
      .ok (some _) := rfl
  have hcreated : traceroute.Since Traceroute.events (traceroute.create .requester) [] :=
    .create .requester none
  have hsince := hcreated.played (by simp [threeAnswers]) hplay
  have hlats : Probe.latencies Traceroute.kind ([] ++ Probe.made Traceroute.events
      (traceroute.visits (traceroute.create .requester) threeAnswers)) = [5, 0, 5] := by decide
  have hfits : Meter.Fits [5, 0, 5] := by
    rw [Meter.Fits, if_pos (by decide)]
    decide
  have htells := (latency_stats_iff (ping.create .requester) (arping.create .requester)
    (arprecon.create .requester) _ _).2.2.2 hsince (by rw [hlats]; decide)
  exact ⟨_, _, hplay, hsince, hlats, htells.1.2 (by rw [hlats]; exact hfits), rfl⟩

/-- After 858993460 echo replies without a time, all of latency 5, the mean is reported as 0. -/
theorem latency_stats_wrapped :
    ∃ c es, ping.play (some (ping.create .requester))
        (List.replicate 858993460 (.feedInput (some (List.replicate 8 0)))) = .ok (some c) ∧
      ping.Since Ping.events c es ∧ Probe.latencies Ping.kind es = List.replicate 858993460 5 ∧
      (c.stats (ping.lossPct c)).avgLatencyMs.toNat = 0 ∧
      ¬ Probe.Faithful (c.stats (ping.lossPct c)) (Probe.latencies Ping.kind es) := by
  rcases Ping.since_echoReplies 858993460 with ⟨c, es, hplay, _, hsince, hlats⟩
  have hmeter := hsince.meter_eq Ping.posts fun _ _ h => h.elim
  have htotal : ∀ n, total (List.replicate n 5) = n * 5 := by
    intro n
    rw [total, List.map_replicate, List.sum_replicate_nat]
    rfl
  have hmean : (c.stats (ping.lossPct c)).avgLatencyMs.toNat = 0 := by
    have hstats : (c.stats (ping.lossPct c)).avgLatencyMs = c.meter.mean := rfl
    rw [hstats, hmeter, hlats, Meter.toNat_mean_of, htotal, List.length_replicate]
    -- The sum wraps to 4.
    exact Nat.div_eq_of_lt (by decide)
  refine ⟨c, es, hplay, hsince, hlats, hmean, fun h => ?_⟩
  have htold := h.mean
  rw [hmean, hlats, htotal, List.length_replicate] at htold
  exact absurd htold (by decide)

end Netdiag
