import Netdiag.Buffer
import Netdiag.Probe.Averages

/-!
# Listener — what the requesters of the probe modules are

A listener has no clock.  It remembers the packets that it looked at since it was created or reset,
and what it makes of the next one depends on them, on the packet, and on whether this comes with a
time, but not on which (`Listener.step_untimed`).  `Module.Hears` is what makes the requesters of a
module listeners, so that no caller can tell the two apart (`Module.Hears.observe_eq`).
-/

namespace Netdiag
namespace Probe

open Lib

/-! ## Listeners -/

/-- What a module makes of packets: the shortest one that it looks at, the events for a packet that
comes after some others, with a time or without, and the counters that they belong to.  There are
no events to be had of a packet that ends in front of a byte which is read. -/
structure Ear where
  minLen : Nat
  hear : List (List UInt8) → List UInt8 → Bool → Option (List Event)
  kind : Event → Option Counter
  /-- The loss percentage, from the numbers of replies and failures. -/
  lossPct : UInt32 → UInt32 → UInt32

/-- The packets and what was made of them, in order, and the events that nobody has taken. -/
structure Listener where
  packets : List (List UInt8)
  events : List Event
  pending : Buffer Event

namespace Listener

def new (size : Nat) : Listener where
  packets := []
  events := []
  pending := newBuffer 8 size

def hear (E : Ear) (v : Listener) (d : List UInt8) (timed : Bool) : Except Fault Listener :=
  match E.hear v.packets d timed with
  | none => .error (.outOfBounds d.length)
  | some es => .ok
      { packets := v.packets ++ [d]
        events := v.events ++ es
        pending := v.pending.pushAll es }

def feed (E : Ear) (v : Listener) (d : Option (List UInt8)) (timed : Bool) :
    Except Fault (Listener × Result) :=
  match d with
  | none => .ok (v, .code (-1))
  | some d =>
      if d.length < E.minLen then .ok (v, .code (-1))
      else (v.hear E d timed).map fun v => (v, .code 0)

/-- The statistics are those of the events, as words. -/
def stats (E : Ear) (v : Listener) : Stats where
  replies := UInt32.ofNat (tally E.kind .replies v.events)
  timeouts := UInt32.ofNat (tally E.kind .timeouts v.events)
  duplicates := UInt32.ofNat (tally E.kind .dups v.events)
  lossPct := E.lossPct (UInt32.ofNat (tally E.kind .replies v.events))
    (UInt32.ofNat (tally E.kind .timeouts v.events))
  avgLatencyMs := (Meter.of (latencies E.kind v.events)).mean
  maxLatencyMs := (Meter.of (latencies E.kind v.events)).max
  minLatencyMs := (Meter.of (latencies E.kind v.events)).least

def step (E : Ear) (v : Listener) : Call → Except Fault (Listener × Result)
  | .feedInput d => v.feed E d false
  | .feedInputWithTs d ts => v.feed E d (ts ≠ 0)
  | .process _ => .ok (v, .code 0)
  | .nextEvent none => .ok (v, .event (-1) none)
  | .nextEvent (some e) =>
      .ok ({ v with pending := (v.pending.pop e).2.1 },
        .event (v.pending.pop e).1 (some (v.pending.pop e).2.2))
  | .getStats none => .ok (v, .stats (-1) none)
  | .getStats (some _) => .ok (v, .stats 0 (some (v.stats E)))
  | .reset => .ok ({ packets := [], events := [], pending := v.pending.clear }, .done)

end Listener

/-! ## Modules that listen -/

variable {X : Type} {m : Module X}

/-- What makes the requesters of a module listeners: `I` is what their contexts keep of the packets
since the last reset. -/
structure Module.Hears (m : Module X) (E : Ear) (I : Ctx X → List (List UInt8) → Prop) : Prop where
  minLen : m.minLen = E.minLen
  role : ∀ {c ps}, I c ps → c.role = .requester
  create : ∀ size, I (m.qinit .requester (RawRing.calloc {}) 0 m.calloc size) []
  reset : ∀ {c ps}, I c ps → I (m.qinit c.role c.ring.1 c.sendTs c.own c.qsz) []
  queue : ∀ {c ps} q, I c ps → q.role = c.role → I { c with toQueueCtx := q } ps
  heard : ∀ {c ps d ts es}, I c ps → E.minLen ≤ d.length → E.hear ps d (ts ≠ 0) = some es →
    ∃ c', m.body c d ts = .ok c' ∧ Posting E.kind c c' es ∧ I c' (ps ++ [d])
  missed : ∀ {c ps d ts}, I c ps → E.minLen ≤ d.length → E.hear ps d (ts ≠ 0) = none →
    m.body c d ts = .error (.outOfBounds d.length)
  tick : ∀ {c ps} ts, I c ps → m.tick c ts = c
  lossPct : ∀ {c ps}, I c ps → m.lossPct c = E.lossPct c.replies c.timeouts

/-- The words of a requester's context are those of the listener. -/
structure Ctx.Shows (E : Ear) (I : Ctx X → List (List UInt8) → Prop) (c : Ctx X) (v : Listener) :
    Prop where
  keeps : I c v.packets
  pending : c.buffer = v.pending
  counts : ∀ k, Counter.value c k = UInt32.ofNat (tally E.kind k v.events)
  meter : c.meter = Meter.of (latencies E.kind v.events)

/-- Context and listener after a call. -/
def Together (E : Ear) (I : Ctx X → List (List UInt8) → Prop) (ctx : Option (Ctx X))
    (v : Listener) : Prop :=
  ∃ c, ctx = some c ∧ c.Shows E I v

theorem value_with_queue (c : Ctx X) (q : QueueCtx Role Event) (k : Counter) :
    Counter.value { c with toQueueCtx := q } k = Counter.value c k := by
  cases k <;> rfl

namespace Module.Hears

variable {E : Ear} {I : Ctx X → List (List UInt8) → Prop}

theorem shows_create (h : m.Hears E I) (size : Nat) :
    (m.qinit .requester (RawRing.calloc {}) 0 m.calloc size).Shows E I (.new size) where
  keeps := h.create size
  pending := QueueCtx.buffer_init _ (by decide) _ _ _
  counts k := by cases k <;> rfl
  meter := rfl

theorem shows_reset (h : m.Hears E I) {c : Ctx X} {v : Listener} (hc : c.Shows E I v) :
    (m.qinit c.role c.ring.1 c.sendTs c.own c.qsz).Shows E I
      { packets := [], events := [], pending := v.pending.clear } where
  keeps := h.reset hc.keeps
  pending := by
    rw [← hc.pending]
    exact c.toQueueCtx.buffer_reset 8 dfltProbeQsz_pos c.role
  counts k := by cases k <;> rfl
  meter := rfl

theorem stats_eq (h : m.Hears E I) {c : Ctx X} {v : Listener} (hc : c.Shows E I v) :
    c.stats (m.lossPct c) = v.stats E := by
  have hreplies : c.replies = _ := hc.counts .replies
  have htimeouts : c.timeouts = _ := hc.counts .timeouts
  have hdups : c.dups = _ := hc.counts .dups
  rw [h.lossPct hc.keeps, Listener.stats, ← hc.meter, ← hreplies, ← htimeouts, ← hdups]
  rfl

/-- The step lemma for packets. -/
theorem feed (h : m.Hears E I) {c : Ctx X} {v : Listener} (hc : c.Shows E I v)
    (d : Option (List UInt8)) (ts : UInt64) :
    RelOk (fun x y => Together E I x.2 y.1 ∧ Result.code x.1 = y.2)
      (m.feedInputWithTs (some c) d ts) (v.feed E d (ts ≠ 0)) := by
  cases d with
  | none => exact .ok ⟨⟨c, rfl, hc⟩, rfl⟩
  | some d =>
      rw [Listener.feed]
      by_cases hshort : d.length < E.minLen
      · rw [if_pos hshort, feedInputWithTs_of_short (h.minLen ▸ hshort)]
        exact .ok ⟨⟨c, rfl, hc⟩, rfl⟩
      have hlen : E.minLen ≤ d.length := Nat.le_of_not_lt hshort
      rw [if_neg hshort, feedInputWithTs_of_le (h.minLen ▸ hlen), Listener.hear]
      cases hes : E.hear v.packets d (ts ≠ 0) with
      | none =>
          -- Both read at the end of the packet.
          rw [h.missed hc.keeps hlen hes]
          exact .error _
      | some es =>
          rcases h.heard hc.keeps hlen hes with ⟨c', hbody, hposting, hkeeps⟩
          -- What the posting did to queue, counters and meter is what the events do to them.
          rw [hbody]
          refine .ok ⟨⟨c', rfl, hkeeps, ?_, fun k => ?_, ?_⟩, rfl⟩
          · show c'.toQueueCtx.buffer = _
            rw [hposting.books.queue, QueueCtx.buffer_pushAll]
            exact congrArg (·.pushAll es) hc.pending
          · rw [hposting.books.counts, hc.counts, tally_append, UInt32.ofNat_add]
          · rw [hposting.meter, hc.meter, latencies_append, Meter.of_append]

/-- The step lemma: a requester and a listener that agree do so after every call, and the call
returns the same. -/
theorem step_together (h : m.Hears E I) (ctx : Option (Ctx X)) (v : Listener) (call : Call)
    (htogether : Together E I ctx v) :
    RelOk (fun x y => Together E I x.1 y.1 ∧ x.2 = y.2) (m.step ctx call) (v.step E call) := by
  rcases htogether with ⟨c, rfl, hc⟩
  have hfeed : ∀ d ts, RelOk (fun x y => Together E I x.1 y.1 ∧ x.2 = y.2)
      (m.feedInputWithTs (some c) d ts >>= fun x => .ok (x.2, Result.code x.1))
      (v.feed E d (ts ≠ 0)) :=
    fun d ts => (h.feed hc d ts).map_left fun x y hxy => hxy
  cases call with
  | feedInput d => exact hfeed d 0
  | feedInputWithTs d ts => exact hfeed d ts
  | process ts =>
      -- No probe of a requester waits.
      refine .ok ⟨⟨_, rfl, ?_⟩, rfl⟩
      rw [h.tick ts hc.keeps]
      exact hc
  | nextEvent e =>
      cases e with
      | none => exact .ok ⟨⟨c, rfl, hc⟩, rfl⟩
      | some e =>
          rcases QueueCtx.pop_of_buffer hc.pending e with ⟨hcode, hbuffer, hevent⟩
          refine .ok ⟨⟨_, rfl, h.queue _ hc.keeps (c.toQueueCtx.role_pop e), hbuffer,
            fun k => ?_, hc.meter⟩, ?_⟩
          · exact (value_with_queue c _ k).trans (hc.counts k)
          · rw [← hcode, ← hevent]
            rfl
  | getStats s =>
      cases s with
      | none => exact .ok ⟨⟨c, rfl, hc⟩, rfl⟩
      | some s => exact .ok ⟨⟨c, rfl, hc⟩, by rw [← h.stats_eq hc]; rfl⟩
  | reset => exact .ok ⟨⟨_, rfl, h.shows_reset hc⟩, rfl⟩

theorem together_create (h : m.Hears E I) (config : Option Config) :
    Together E I (some (m.createWithConfig .requester config))
      (.new (config.elim 8 Config.eventQueueSize)) := by
  cases config with
  | none => exact ⟨_, rfl, h.shows_create 8⟩
  | some config => exact ⟨_, rfl, h.shows_create config.eventQueueSize⟩

/-- The run lemma. -/
theorem observe_eq (h : m.Hears E I) (config : Option Config) (calls : List Call) :
    observe m.step (some (m.createWithConfig .requester config)) calls =
      observe (Listener.step E) (.new (config.elim 8 Config.eventQueueSize)) calls :=
  observe_eq_of_bisim h.step_together (h.together_create config) calls

theorem observeOf_eq (h : m.Hears E I) (config : Option Config) (keep : Call → Bool)
    (calls : List Call) :
    observeOf keep m.step (some (m.createWithConfig .requester config)) calls =
      observeOf keep (Listener.step E) (.new (config.elim 8 Config.eventQueueSize)) calls :=
  observeOf_eq_of_bisim h.step_together (h.together_create config) keep calls

end Module.Hears

/-! ## What a listener does not look at -/

/-- The call with one time in the place of all others; no time stays none. -/
def Call.untimed : Call → Call
  | .feedInputWithTs d ts => .feedInputWithTs d (if ts = 0 then 0 else 1)
  | .process _ => .process 0
  | call => call

theorem Listener.step_untimed (E : Ear) (v : Listener) (call : Call) :
    v.step E call.untimed = v.step E call := by
  cases call with
  | feedInputWithTs d ts =>
      by_cases hts : ts = 0
      · -- No time is not a time.
        rw [Call.untimed, if_pos hts, hts]
      · have htimed : decide (ts ≠ 0) = decide ((1 : UInt64) ≠ 0) := by
          rw [decide_eq_true hts]
          rfl
        rw [Call.untimed, if_neg hts, step, step, htimed]
  | process ts => rfl
  | nextEvent e => rfl
  | getStats s => rfl
  | reset => rfl
  | feedInput d => rfl

/-- The packet makes no event, at least for a listener that has heard nothing yet. -/
def Ear.Quiet (E : Ear) (d : List UInt8) (timed : Bool) : Prop :=
  d.length < E.minLen ∨ E.hear [] d timed = some []

instance (E : Ear) (d : List UInt8) (timed : Bool) : Decidable (E.Quiet d timed) :=
  inferInstanceAs (Decidable (_ ∨ _))

/-- A packet that makes no event does so whatever was heard before, and is not remembered. -/
structure Ear.Steady (E : Ear) : Prop where
  quiet : ∀ {d timed}, E.hear [] d timed = some [] → ∀ ps, E.hear ps d timed = some []
  forgets : ∀ {d timed}, E.hear [] d timed = some [] → ∀ ps qs d' timed',
    E.hear (ps ++ d :: qs) d' timed' = E.hear (ps ++ qs) d' timed'

/-- The call is more than a packet that makes no event, or the news of a time. -/
def Call.tells (E : Ear) : Call → Bool
  | .feedInput none | .feedInputWithTs none _ | .process _ => false
  | .feedInput (some d) => ¬ E.Quiet d false
  | .feedInputWithTs (some d) ts => ¬ E.Quiet d (ts ≠ 0)
  | _ => true

namespace Listener

/-- Listeners that will hear the same in whatever comes. -/
structure Alike (E : Ear) (v w : Listener) : Prop where
  packets : ∀ qs d timed, E.hear (v.packets ++ qs) d timed = E.hear (w.packets ++ qs) d timed
  events : v.events = w.events
  pending : v.pending = w.pending

theorem Alike.feed {E : Ear} {v w : Listener} (h : Alike E v w) (d : Option (List UInt8))
    (timed : Bool) :
    RelOk (fun x y => Alike E x.1 y.1 ∧ x.2 = y.2) (v.feed E d timed) (w.feed E d timed) := by
  cases d with
  | none => exact .ok ⟨h, rfl⟩
  | some d =>
      rw [Listener.feed, Listener.feed]
      split_ifs with hshort
      · exact .ok ⟨h, rfl⟩
      have hsame : E.hear v.packets d timed = E.hear w.packets d timed := by
        have hnow := h.packets [] d timed
        rwa [List.append_nil, List.append_nil] at hnow
      rw [Listener.hear, Listener.hear, hsame]
      cases E.hear w.packets d timed with
      | none => exact .error _
      | some es =>
          refine .ok ⟨⟨fun qs d' timed' => ?_, ?_, ?_⟩, rfl⟩
          · -- The packet is the first of those that are still to come.
            rw [List.append_assoc, List.append_assoc]
            exact h.packets ([d] ++ qs) d' timed'
          · exact congrArg (· ++ es) h.events
          · exact congrArg (·.pushAll es) h.pending

theorem Alike.step {E : Ear} {v w : Listener} (h : Alike E v w) (call : Call) :
    RelOk (fun x y => Alike E x.1 y.1 ∧ x.2 = y.2) (v.step E call) (w.step E call) := by
  cases call with
  | feedInput d => exact h.feed d false
  | feedInputWithTs d ts => exact h.feed d (ts ≠ 0)
  | process ts => exact .ok ⟨h, rfl⟩
  | nextEvent e =>
      cases e with
      | none => exact .ok ⟨h, rfl⟩
      | some e =>
          rw [Listener.step, Listener.step, h.pending]
          exact .ok ⟨⟨h.packets, h.events, rfl⟩, rfl⟩
  | getStats s =>
      cases s with
      | none => exact .ok ⟨h, rfl⟩
      | some s =>
          rw [Listener.step, Listener.step, Listener.stats, Listener.stats, h.events]
          exact .ok ⟨h, rfl⟩
  | reset => exact .ok ⟨⟨fun _ _ _ => rfl, rfl, congrArg Buffer.clear h.pending⟩, rfl⟩

/-- A quiet packet returns and leaves the listener as it was. -/
theorem Alike.feed_quiet {E : Ear} (hE : E.Steady) {v w : Listener} (h : Alike E v w)
    {d : List UInt8} {timed : Bool} (hquiet : E.Quiet d timed) :
    ∃ v' r, v.feed E (some d) timed = .ok (v', r) ∧ Alike E v' w := by
  rw [Listener.feed]
  by_cases hshort : d.length < E.minLen
  · rw [if_pos hshort]
    exact ⟨v, _, rfl, h⟩
  have hnone := hquiet.resolve_left hshort
  rw [if_neg hshort, Listener.hear, hE.quiet hnone]
  -- The packet is remembered, but what comes after it is heard as if it were not.
  refine ⟨_, _, rfl, ⟨fun qs d' timed' => ?_, ?_, h.pending⟩⟩
  · rw [List.append_assoc, List.singleton_append, hE.forgets hnone]
    exact h.packets qs d' timed'
  · rw [List.append_nil]
    exact h.events

theorem Alike.step_silent {E : Ear} (hE : E.Steady) {v w : Listener} (h : Alike E v w)
    {call : Call} (hcall : call.tells E = false) :
    ∃ v' r, v.step E call = .ok (v', r) ∧ Alike E v' w := by
  cases call with
  | feedInput d =>
      cases d with
      | none => exact ⟨v, _, rfl, h⟩
      | some d =>
          have hquiet : E.Quiet d false := not_not.1 (of_decide_eq_false hcall)
          exact h.feed_quiet hE hquiet
  | feedInputWithTs d ts =>
      cases d with
      | none => exact ⟨v, _, rfl, h⟩
      | some d =>
          have hquiet : E.Quiet d (ts ≠ 0) := not_not.1 (of_decide_eq_false hcall)
          exact h.feed_quiet hE hquiet
  | process ts => exact ⟨v, _, rfl, h⟩
  | nextEvent e => cases hcall
  | getStats s => cases hcall
  | reset => cases hcall

/-- The run lemma. -/
theorem observeOf_tells {E : Ear} (hE : E.Steady) (v : Listener) (calls : List Call) :
    observeOf (Call.tells E) (step E) v calls = observe (step E) v (calls.filter (Call.tells E)) :=
  observeOf_eq_observe_filter (R := Alike E) (Call.tells E) (fun call _ _ _ h => h.step call)
    (fun _ hcall _ _ h => h.step_silent hE hcall) ⟨fun _ _ _ => rfl, rfl, rfl⟩ calls

end Listener
end Probe
end Netdiag
