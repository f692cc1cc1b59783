import Netdiag.Probe.Listener

/-!
# Alarm — what the responders of the probe modules are

An alarm keeps two things of all that it was told: the number of the last request, until it has
rung for it, and the last time that came along.  It rings if it is told of a time more than a second
later.  It counts nothing but that.  In five modules a responder cannot be told from an alarm,
whatever calls are made (`responder_is_alarm`).

The time outlives a reset, and requests without a time are taken to be as old as the time before.
Requests are all that an alarm is told by packets: others can be left out
(`responders_hear_requests_only`).
-/

namespace Netdiag
namespace Probe

open Lib

/-! ## Alarms -/

/-- What a module makes of packets and times for its responders. -/
structure Bell where
  minLen : Nat
  /-- The number of the request in a packet, if it is one. -/
  ask : List UInt8 → Except Fault (Option UInt32)
  /-- The times of all packets count, not only those of requests. -/
  keepsTimes : Bool
  /-- The event for a request that nobody answered, if the module has timeouts. -/
  rings : Option (UInt32 → Event)
  lossPct : UInt32 → UInt32 → UInt32

structure Alarm where
  request : Option UInt32
  clock : UInt64
  expired : Nat
  pending : Buffer Event

namespace Alarm

def new (size : Nat) : Alarm where
  request := none
  clock := 0
  expired := 0
  pending := newBuffer 8 size

def tell (v : Alarm) (ts : UInt64) : Alarm :=
  { v with clock := if ts ≠ 0 then ts else v.clock }

/-- What a packet is to the alarm. -/
def hear (B : Bell) (v : Alarm) (ts : UInt64) : Option UInt32 → Alarm
  | some number => { v.tell ts with request := some number }
  | none => if B.keepsTimes then v.tell ts else v

def feed (B : Bell) (v : Alarm) (d : Option (List UInt8)) (ts : UInt64) :
    Except Fault (Alarm × Result) :=
  match d with
  | none => .ok (v, .code (-1))
  | some d =>
      if d.length < B.minLen then .ok (v, .code (-1))
      else (B.ask d).map fun request => (v.hear B ts request, .code 0)

/-- The second is counted in the arithmetic of 64-bit words. -/
def Due (v : Alarm) (now : UInt64) : Prop :=
  v.clock ≠ 0 ∧ now > v.clock + 1000

instance (v : Alarm) (now : UInt64) : Decidable (v.Due now) :=
  inferInstanceAs (Decidable (_ ∧ _))

def process (B : Bell) (v : Alarm) (now : UInt64) : Alarm :=
  match B.rings, v.request with
  | some event, some number =>
      if v.Due now then
        { v with
            request := none
            expired := v.expired + 1
            pending := v.pending.push (event number) }
      else v
  | _, _ => v

/-- Nothing was ever answered. -/
def stats (B : Bell) (v : Alarm) : Stats where
  replies := 0
  timeouts := UInt32.ofNat v.expired
  duplicates := 0
  lossPct := B.lossPct 0 (UInt32.ofNat v.expired)
  avgLatencyMs := 0
  maxLatencyMs := 0
  minLatencyMs := 0

def step (B : Bell) (v : Alarm) : Call → Except Fault (Alarm × Result)
  | .feedInput d => v.feed B d 0
  | .feedInputWithTs d ts => v.feed B d ts
  | .process now => .ok (v.process B now, .code 0)
  | .nextEvent none => .ok (v, .event (-1) none)
  | .nextEvent (some e) =>
      .ok ({ v with pending := (v.pending.pop e).2.1 },
        .event (v.pending.pop e).1 (some (v.pending.pop e).2.2))
  | .getStats none => .ok (v, .stats (-1) none)
  | .getStats (some _) => .ok (v, .stats 0 (some (v.stats B)))
  | .reset => .ok ({ v with request := none, expired := 0, pending := v.pending.clear }, .done)

end Alarm

/-! ## Modules with alarms -/

variable {X : Type} {m : Module X}

/-- A responder's context after a packet, with the module's own fields for each number. -/
def Ctx.told (B : Bell) (own : UInt32 → X) (c : Ctx X) (ts : UInt64) : Option UInt32 → Ctx X
  | some n => { c.request ts with own := own n }
  | none => if B.keepsTimes then c.stamp ts else c

/-- What makes the responders of a module alarms: `number` is the number of the last request among
the module's own fields. -/
structure Module.Rings (m : Module X) (B : Bell) (number : X → UInt32) : Prop where
  minLen : m.minLen = B.minLen
  told : ∀ {c : Ctx X} {d ts}, c.role = .responder → B.minLen ≤ d.length →
    ∃ own, (∀ n, B.ask d = .ok (some n) → number (own n) = n) ∧
      m.body c d ts = (B.ask d).map (c.told B own ts)
  rung : ∀ {c : Ctx X} {now event}, B.rings = some event → c.Expired now →
    ∃ own, m.tick c now = { c.timeout (event (number c.own)) with own := own }
  calm : ∀ {c : Ctx X} {now}, B.rings = none ∨ ¬ c.Expired now → m.tick c now = c
  lossPct : ∀ {c : Ctx X}, m.lossPct c = B.lossPct c.replies c.timeouts

/-- The words of a responder's context are those of the alarm. -/
structure Ctx.Rings (number : X → UInt32) (c : Ctx X) (v : Alarm) : Prop where
  role : c.role = .responder
  waiting : c.waiting = v.request.isSome
  number : ∀ n, v.request = some n → number c.own = n
  clock : c.sendTs = v.clock
  pending : c.buffer = v.pending
  replies : c.replies = 0
  timeouts : c.timeouts = UInt32.ofNat v.expired
  dups : c.dups = 0
  meter : c.meter = Meter.zero

/-- Context and alarm after a call. -/
def InStep (number : X → UInt32) (ctx : Option (Ctx X)) (v : Alarm) : Prop :=
  ∃ c, ctx = some c ∧ c.Rings number v

theorem Ctx.Rings.expired_iff {number : X → UInt32} {c : Ctx X} {v : Alarm}
    (hc : c.Rings number v) (now : UInt64) : c.Expired now ↔ v.request.isSome ∧ v.Due now := by
  rw [Ctx.Expired, Alarm.Due, hc.waiting, hc.clock]

theorem Ctx.Rings.stamp {number : X → UInt32} {c : Ctx X} {v : Alarm} (hc : c.Rings number v)
    (ts : UInt64) : (c.stamp ts).Rings number (v.tell ts) :=
  { hc with
    clock := by
      show (if ts ≠ 0 then ts else c.sendTs) = if ts ≠ 0 then ts else v.clock
      rw [hc.clock] }

theorem Ctx.Rings.request {number : X → UInt32} {c : Ctx X} {v : Alarm} (hc : c.Rings number v)
    (ts : UInt64) {own : X} {n : UInt32} (hown : number own = n) :
    Ctx.Rings number { c.request ts with own := own } { v.tell ts with request := some n } :=
  { hc.stamp ts with
    waiting := rfl
    number := fun _ hn => hown.trans (Option.some.inj hn) }

theorem Ctx.Rings.timeout {number : X → UInt32} {c : Ctx X} {v : Alarm} (hc : c.Rings number v)
    (own : X) (ev : Event) :
    Ctx.Rings number { c.timeout ev with own := own }
      { v with
          request := none
          expired := v.expired + 1
          pending := v.pending.push ev } :=
  { hc with
    role := (c.toQueueCtx.role_pushAll [ev]).trans hc.role
    waiting := rfl
    -- No request is left whose number must be known.
    number := fun n hn => by cases hn
    pending := by
      rw [← hc.pending]
      exact c.toQueueCtx.buffer_push ev
    timeouts := by
      show c.timeouts + 1 = _
      rw [hc.timeouts]
      exact (UInt32.ofNat_add v.expired 1).symm }

namespace Module.Rings

variable {B : Bell} {number : X → UInt32}

theorem stats_eq (h : m.Rings B number) {c : Ctx X} {v : Alarm} (hc : c.Rings number v) :
    c.stats (m.lossPct c) = v.stats B := by
  have hsum : c.sumLat = 0 := congrArg Meter.sum hc.meter
  have hcount : c.countLat = 0 := congrArg Meter.count hc.meter
  have hmax : c.maxLat = 0 := congrArg Meter.max hc.meter
  have hmin : c.minLat = 0xFFFFFFFF := congrArg Meter.min hc.meter
  -- No latency was ever entered, so the mean is that of none.
  rw [h.lossPct, Alarm.stats, Ctx.stats, hc.replies, hc.timeouts, hc.dups, hsum, hcount, hmax, hmin]
  rfl

/-- The step lemma for packets. -/
theorem feed (h : m.Rings B number) {c : Ctx X} {v : Alarm} (hc : c.Rings number v)
    (d : Option (List UInt8)) (ts : UInt64) :
    RelOk (fun x y => InStep number x.2 y.1 ∧ Result.code x.1 = y.2)
      (m.feedInputWithTs (some c) d ts) (v.feed B d ts) := by
  cases d with
  | none => exact .ok ⟨⟨c, rfl, hc⟩, rfl⟩
  | some d =>
      rw [Alarm.feed]
      by_cases hshort : d.length < B.minLen
      · rw [if_pos hshort, feedInputWithTs_of_short (h.minLen ▸ hshort)]
        exact .ok ⟨⟨c, rfl, hc⟩, rfl⟩
      have hlen : B.minLen ≤ d.length := Nat.le_of_not_lt hshort
      rw [if_neg hshort, feedInputWithTs_of_le (h.minLen ▸ hlen)]
      rcases h.told hc.role hlen with ⟨own, hown, hbody⟩
      rw [hbody]
      cases hask : B.ask d with
      | error e => exact .error e
      | ok request =>
          cases request with
          | none =>
              -- At most the time is kept.
              refine .ok ⟨⟨_, rfl, ?_⟩, rfl⟩
              show Ctx.Rings number (if B.keepsTimes then c.stamp ts else c)
                (if B.keepsTimes then v.tell ts else v)
              split_ifs
              · exact hc.stamp ts
              · exact hc
          | some n => exact .ok ⟨⟨_, rfl, hc.request ts (hown n hask)⟩, rfl⟩

/-- The step lemma for times. -/
theorem process (h : m.Rings B number) {c : Ctx X} {v : Alarm} (hc : c.Rings number v)
    (now : UInt64) : (m.tick c now).Rings number (v.process B now) := by
  rw [Alarm.process]
  cases hrings : B.rings with
  | none =>
      rw [h.calm (.inl hrings)]
      exact hc
  | some event =>
      cases hrequest : v.request with
      | none =>
          -- No request is waiting, neither here nor there.
          have hcalm : ¬ c.Expired now := fun hexpired => by
            have hsome := ((hc.expired_iff now).1 hexpired).1
            rw [hrequest] at hsome
            cases hsome
          rw [h.calm (.inr hcalm)]
          exact hc
      | some n =>
          have hdue : c.Expired now ↔ v.Due now := by
            rw [hc.expired_iff, hrequest]
            exact and_iff_right rfl
          dsimp only
          split_ifs with hnow
          · rcases h.rung hrings (hdue.2 hnow) with ⟨own, htick⟩
            rw [htick, hc.number n hrequest]
            exact hc.timeout own (event n)
          · rw [h.calm (.inr (mt hdue.1 hnow))]
            exact hc

theorem rings_reset {c : Ctx X} {v : Alarm} (hc : c.Rings number v) :
    (m.qinit c.role c.ring.1 c.sendTs c.own c.qsz).Rings number
      { v with request := none, expired := 0, pending := v.pending.clear } where
  role := hc.role
  waiting := rfl
  number := fun n hn => by cases hn
  clock := hc.clock
  pending := by
    rw [← hc.pending]
    exact c.toQueueCtx.buffer_reset 8 dfltProbeQsz_pos c.role
  replies := rfl
  timeouts := rfl
  dups := rfl
  meter := rfl

theorem rings_create (size : Nat) :
    (m.qinit .responder (RawRing.calloc {}) 0 m.calloc size).Rings number (.new size) where
  role := rfl
  waiting := rfl
  number := fun n hn => by cases hn
  clock := rfl
  pending := QueueCtx.buffer_init _ (by decide) _ _ _
  replies := rfl
  timeouts := rfl
  dups := rfl
  meter := rfl

/-- The step lemma: a responder and an alarm that agree do so after every call, and the call
returns the same. -/
theorem step_inStep (h : m.Rings B number) (ctx : Option (Ctx X)) (v : Alarm) (call : Call)
    (hboth : InStep number ctx v) :
    RelOk (fun x y => InStep number x.1 y.1 ∧ x.2 = y.2) (m.step ctx call) (v.step B call) := by
  rcases hboth with ⟨c, rfl, hc⟩
  -- A packet without a time is fed with the time zero.
  have hfeed : ∀ d ts, RelOk (fun x y => InStep number x.1 y.1 ∧ x.2 = y.2)
      (m.feedInputWithTs (some c) d ts >>= fun x => .ok (x.2, Result.code x.1))
      (v.feed B d ts) :=
    fun d ts => (h.feed hc d ts).map_left fun x y hxy => hxy
  cases call with
  | feedInput d => exact hfeed d 0
  | feedInputWithTs d ts => exact hfeed d ts
  | process now => exact .ok ⟨⟨_, rfl, h.process hc now⟩, rfl⟩
  | nextEvent e =>
      cases e with
      | none => exact .ok ⟨⟨c, rfl, hc⟩, rfl⟩
      | some e =>
          rcases QueueCtx.pop_of_buffer hc.pending e with ⟨hcode, hbuffer, hevent⟩
          refine .ok ⟨⟨_, rfl, { hc with
            role := (c.toQueueCtx.role_pop e).trans hc.role
            pending := hbuffer }⟩, ?_⟩
          rw [← hcode, ← hevent]
          rfl
  | getStats s =>
      cases s with
      | none => exact .ok ⟨⟨c, rfl, hc⟩, rfl⟩
      | some s => exact .ok ⟨⟨c, rfl, hc⟩, by rw [← h.stats_eq hc]; rfl⟩
  | reset => exact .ok ⟨⟨_, rfl, rings_reset hc⟩, rfl⟩

theorem inStep_create (config : Option Config) :
    InStep number (some (m.createWithConfig .responder config))
      (.new (config.elim 8 Config.eventQueueSize)) := by
  cases config with
  | none => exact ⟨_, rfl, rings_create 8⟩
  | some config => exact ⟨_, rfl, rings_create config.eventQueueSize⟩

end Module.Rings

/-! ## What an alarm is not told -/

/-- The call is more than a packet without a request, or with nothing at all. -/
def Call.asks (B : Bell) : Call → Bool
  | .feedInput none | .feedInputWithTs none _ => false
  | .feedInput (some d) => ¬ (d.length < B.minLen ∨ B.ask d = .ok none)
  | .feedInputWithTs (some d) ts =>
      ¬ (d.length < B.minLen ∨ B.ask d = .ok none ∧ (B.keepsTimes = true → ts = 0))
  | _ => true

namespace Alarm

/-- A packet without a request leaves the alarm as it was. -/
theorem feed_of_none {B : Bell} (v : Alarm) {d : List UInt8} {ts : UInt64}
    (h : d.length < B.minLen ∨ B.ask d = .ok none ∧ (B.keepsTimes = true → ts = 0)) :
    ∃ r, v.feed B (some d) ts = .ok (v, r) := by
  rw [Alarm.feed]
  by_cases hshort : d.length < B.minLen
  · rw [if_pos hshort]
    exact ⟨_, rfl⟩
  rcases h.resolve_left hshort with ⟨hask, htime⟩
  rw [if_neg hshort, hask]
  have hsame : v.hear B ts none = v := by
    show (if B.keepsTimes then v.tell ts else v) = v
    split_ifs with hkeeps
    · rw [Alarm.tell, htime hkeeps]
      rfl
    · rfl
  refine ⟨.code 0, ?_⟩
  show Except.ok (v.hear B ts none, Result.code 0) = _
  rw [hsame]

theorem step_silent {B : Bell} (v : Alarm) {call : Call} (hcall : call.asks B = false) :
    ∃ r, v.step B call = .ok (v, r) := by
  cases call with
  | feedInput d =>
      cases d with
      | none => exact ⟨_, rfl⟩
      | some d =>
          have hnone := not_not.1 (of_decide_eq_false hcall)
          exact v.feed_of_none (hnone.imp_right fun hask => ⟨hask, fun _ => rfl⟩)
  | feedInputWithTs d ts =>
      cases d with
      | none => exact ⟨_, rfl⟩
      | some d => exact v.feed_of_none (not_not.1 (of_decide_eq_false hcall))
  | process ts => cases hcall
  | nextEvent e => cases hcall
  | getStats s => cases hcall
  | reset => cases hcall

/-- The run lemma. -/
theorem observeOf_asks (B : Bell) (v : Alarm) (calls : List Call) :
    observeOf (Call.asks B) (step B) v calls = observe (step B) v (calls.filter (Call.asks B)) := by
  refine observeOf_eq_observe_filter (R := Eq) (Call.asks B) ?_ ?_ rfl calls
  · rintro call _ v _ rfl
    exact .refl (fun _ => ⟨rfl, rfl⟩) _
  · rintro call hcall v _ rfl
    rcases v.step_silent hcall with ⟨r, hstep⟩
    exact ⟨v, r, hstep, rfl⟩

end Alarm
end Probe
end Netdiag
