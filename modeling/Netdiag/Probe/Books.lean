import Netdiag.Probe.Events
import Netdiag.Probe.History
import Netdiag.Probe.Packets

/-!
# Books — events and the counters of the statistics

Each event that a module queues belongs to one counter.  `Books` is what one call does: it queues
events and adds to each counter the number of those that belong to it.  Over a run the counters are
the numbers of the events that were returned and of those still queued
(`events_account_for_counters`), and for arping, which counts no duplicates but gives its timeouts
the type of one, this is so while nothing times out (`Arping.duplicates_counted_iff`).
-/

namespace Netdiag
namespace Probe

open Lib

variable {X : Type}

/-! ## What a call enters in the books -/

inductive Counter
  | replies
  | timeouts
  | dups
  deriving DecidableEq, Repr

def Counter.value (c : Ctx X) : Counter → UInt32
  | .replies => c.replies
  | .timeouts => c.timeouts
  | .dups => c.dups

/-- How many of the events belong to the counter. -/
def tally (kind : Event → Option Counter) (k : Counter) (es : List Event) : Nat :=
  es.countP fun e => kind e = some k

/-- A call has queued the events and counted them. -/
structure Books (kind : Event → Option Counter) (c c' : Ctx X) (es : List Event) : Prop where
  queue : c'.toQueueCtx = c.toQueueCtx.pushAll es
  counts : ∀ k, Counter.value c' k = Counter.value c k + UInt32.ofNat (tally kind k es)

theorem tally_append (kind : Event → Option Counter) (k : Counter) (es fs : List Event) :
    tally kind k (es ++ fs) = tally kind k es + tally kind k fs :=
  List.countP_append

theorem tally_singleton {kind : Event → Option Counter} {ev : Event} {k₀ : Counter}
    (h : kind ev = some k₀) (k : Counter) : tally kind k [ev] = if k₀ = k then 1 else 0 := by
  rw [tally, List.countP_singleton, h]
  simp only [Option.some.injEq, decide_eq_true_eq]

theorem tally_of_forall {kind : Event → Option Counter} {k₀ : Counter} {es : List Event}
    (h : ∀ e ∈ es, kind e = some k₀) (k : Counter) :
    tally kind k es = if k₀ = k then es.length else 0 := by
  rw [tally]
  split_ifs with hk
  · exact List.countP_eq_length.2 fun e he => decide_eq_true (hk ▸ h e he)
  · refine List.countP_eq_zero.2 fun e he => ?_
    simp [h e he, hk]

namespace Books

variable {kind : Event → Option Counter} {c c' : Ctx X}

theorem nothing (hqueue : c'.toQueueCtx = c.toQueueCtx)
    (hcounts : ∀ k, Counter.value c' k = Counter.value c k) : Books kind c c' [] where
  queue := hqueue
  counts k := (hcounts k).trans (UInt32.add_zero _).symm

theorem refl (kind : Event → Option Counter) (c : Ctx X) : Books kind c c [] :=
  nothing rfl fun _ => rfl

theorem trans {c'' : Ctx X} {es fs : List Event} (h : Books kind c c' es)
    (h' : Books kind c' c'' fs) : Books kind c c'' (es ++ fs) where
  queue := by rw [h'.queue, h.queue, QueueCtx.pushAll_append]
  counts k := by
    rw [h'.counts, h.counts, tally_append, UInt32.ofNat_add, UInt32.add_assoc]

/-- One event, and the counter that it belongs to. -/
theorem one {ev : Event} {k₀ : Counter} (hkind : kind ev = some k₀)
    (hqueue : c'.toQueueCtx = c.toQueueCtx.pushAll [ev])
    (hcounts : ∀ k, Counter.value c' k = Counter.value c k + if k₀ = k then 1 else 0) :
    Books kind c c' [ev] where
  queue := hqueue
  counts k := by
    rw [hcounts, tally_singleton hkind, apply_ite UInt32.ofNat]
    rfl

end Books

/-! ## What a call does, and what it enters -/

/-- Everything that a part of a call does to a context, with the events that it queues: one case for
each way in which the modules touch their statistics. -/
inductive Posting (kind : Event → Option Counter) : Ctx X → Ctx X → List Event → Prop
  | same (c : Ctx X) : Posting kind c c []
  | stamp (c : Ctx X) (ts : UInt64) : Posting kind c (c.stamp ts) []
  | request (c : Ctx X) (ts : UInt64) (own : X) :
      Posting kind c { c.request ts with own := own } []
  | reply {c : Ctx X} {ev : Event} {ts : UInt64} (own : X) :
      kind { ev with latencyMs := c.latency ts } = some .replies →
        Posting kind c { c.reply ev ts with own := own } [{ ev with latencyMs := c.latency ts }]
  | timeout {c : Ctx X} {ev : Event} (own : X) : kind ev = some .timeouts →
      Posting kind c { c.timeout ev with own := own } [ev]
  | dups {c : Ctx X} {es : List Event} {n : Nat} (own : X) : es.length = n →
      (∀ e ∈ es, kind e = some .dups) →
        Posting kind c
          { c with
              toQueueCtx := c.toQueueCtx.pushAll es
              dups := c.dups + UInt32.ofNat n
              own := own } es
  | trans {c c' c'' : Ctx X} {es fs : List Event} : Posting kind c c' es →
      Posting kind c' c'' fs → Posting kind c c'' (es ++ fs)

/-- The rule for `*_process` of the modules with timers. -/
theorem Posting.expire {kind : Event → Option Counter} {c : Ctx X} {ev : Event}
    (hkind : kind ev = some .timeouts) (ts : UInt64) (own : X) :
    Posting kind c (if c.Expired ts then { c.timeout ev with own := own } else c)
      (c.expiry ev ts).toList := by
  rw [Ctx.expiry]
  split_ifs with hexpired
  · exact .timeout own hkind
  · exact .same c

theorem Posting.books {kind : Event → Option Counter} {c c' : Ctx X} {es : List Event}
    (h : Posting kind c c' es) : Books kind c c' es := by
  induction h with
  | same c => exact .refl kind c
  | stamp c ts => exact .nothing rfl fun k => by cases k <;> rfl
  | request c ts own => exact .nothing rfl fun k => by cases k <;> rfl
  | reply own hkind =>
      refine .one hkind rfl fun k => ?_
      cases k with
      | replies => rfl
      | timeouts => exact (UInt32.add_zero _).symm
      | dups => exact (UInt32.add_zero _).symm
  | timeout own hkind =>
      refine .one hkind rfl fun k => ?_
      cases k with
      | replies => exact (UInt32.add_zero _).symm
      | timeouts => rfl
      | dups => exact (UInt32.add_zero _).symm
  | dups own hlen hkind =>
      refine ⟨rfl, fun k => ?_⟩
      rw [tally_of_forall hkind, hlen]
      cases k with
      | replies => exact (UInt32.add_zero _).symm
      | timeouts => exact (UInt32.add_zero _).symm
      | dups => rfl
  | trans _ _ ih ih' => exact ih.trans ih'

/-! ## The calls of a module -/

/-- A call that returned did not fail. -/
theorem of_returned {P : Prop} {x : Except Fault (Ctx X)} {c : Ctx X}
    (hfails : ¬ P → ∃ e, x = .error e) (h : x = .ok c) : P := by
  by_contra hnot
  rcases hfails hnot with ⟨e, herror⟩
  cases herror.symm.trans h

theorem Call.plain_of_feeds {call : Call} {d : List UInt8} {ts : UInt64} (h : call.Feeds d ts) :
    call.Plain := by
  rcases h with rfl | ⟨rfl, _⟩ <;> refine ⟨fun e h => ?_, fun h => ?_⟩ <;> cases h

theorem Call.ne_process_of_feeds {call : Call} {d : List UInt8} {ts : UInt64}
    (h : call.Feeds d ts) (now : UInt64) : call ≠ .process now := by
  rcases h with rfl | ⟨rfl, _⟩ <;> intro h <;> cases h

/-- The events of a call, from those of a packet and of the time. -/
def Call.events (packet : List UInt8 → UInt64 → List Event) (time : UInt64 → List Event) :
    Call → List Event
  | .feedInput (some d) => packet d 0
  | .feedInputWithTs (some d) ts => packet d ts
  | .process ts => time ts
  | _ => []

theorem Call.events_of_feeds {packet : List UInt8 → UInt64 → List Event}
    {time : UInt64 → List Event} {call : Call} {d : List UInt8} {ts : UInt64}
    (h : call.Feeds d ts) : call.events packet time = packet d ts := by
  rcases h with rfl | ⟨rfl, rfl⟩ <;> rfl

/-- Every call that neither takes an event nor resets the context is entered in the books, with
these events. -/
structure Module.Booked (m : Module X) (kind : Event → Option Counter)
    (events : Ctx X → Call → List Event) : Prop where
  plain : ∀ {c c' : Ctx X} {call : Call} {r : Result}, call.Plain →
    m.step (some c) call = .ok (some c', r) → Books kind c c' (events c call)
  next : ∀ (c : Ctx X) (e : Event), events c (.nextEvent (some e)) = []

/-- Every such call is a posting, with these events. -/
structure Module.Posts (m : Module X) (kind : Event → Option Counter)
    (events : Ctx X → Call → List Event) : Prop where
  plain : ∀ {c c' : Ctx X} {call : Call} {r : Result}, call.Plain →
    m.step (some c) call = .ok (some c', r) → Posting kind c c' (events c call)
  next : ∀ (c : Ctx X) (e : Event), events c (.nextEvent (some e)) = []

variable {m : Module X} {kind : Event → Option Counter} {events : Ctx X → Call → List Event}

/-- The rule for a module: the posting of a call from those of its two parts. -/
theorem posts_events {packet : Ctx X → List UInt8 → UInt64 → List Event}
    {time : Ctx X → UInt64 → List Event}
    (hpacket : ∀ c d ts c', m.minLen ≤ d.length → m.body c d ts = .ok c' →
      Posting kind c c' (packet c d ts))
    (hshort : ∀ c d ts, d.length < m.minLen → packet c d ts = [])
    (htime : ∀ c ts, Posting kind c (m.tick c ts) (time c ts)) :
    m.Posts kind fun c => Call.events (packet c) (time c) := by
  refine ⟨?_, fun _ _ => rfl⟩
  intro c c' call r hplain hstep
  rcases Module.step_transition hstep with ⟨c'', hptr, htrans⟩
  obtain rfl : c' = c'' := Option.some.inj hptr
  cases htrans with
  | fed hcall hlen hbody =>
      rw [Call.events_of_feeds hcall]
      exact hpacket _ _ _ _ hlen hbody
  | short hcall hlen =>
      rw [Call.events_of_feeds hcall, hshort _ _ _ hlen]
      exact .same c
  | @ticked ts hcall =>
      subst hcall
      exact htime c ts
  | @popped e _ _ _ hcall => exact absurd hcall (hplain.1 e)
  | looked hcall =>
      subst hcall
      exact .same c
  | null hcall =>
      rcases hcall with rfl | ⟨_, rfl⟩ | rfl | rfl <;> exact .same c
  | cleared hcall => exact absurd hcall hplain.2

theorem Module.Posts.booked (h : m.Posts kind events) : m.Booked kind events :=
  ⟨fun hplain hstep => (h.plain hplain hstep).books, h.next⟩

theorem Module.Booked.queues (h : m.Booked kind events) : m.Queues events :=
  ⟨fun hplain hstep => (h.plain hplain hstep).queue, h.next⟩

/-! ## The books over a run -/

/-- The run goes on from the creation or a reset of a context, its packets have at least `k` bytes,
it always finds room in the queue, and it makes fewer events than a counter counts. -/
structure Module.Flows (m : Module X) (events : Ctx X → Call → List Event) (k : Nat) (c : Ctx X)
    (calls : List Call) : Prop where
  created : ∃ role r sendTs own size, c = m.qinit role r sendTs own size
  reset : .reset ∉ calls
  long : ∀ call ∈ calls, ∀ d ts, call.Feeds d ts → k ≤ d.length
  room : ∀ v ∈ m.visits c calls, Roomy events v
  few : (made events (m.visits c calls)).length < 2 ^ 32

/-- A packet in the call has at least `k` bytes. -/
def Call.Long (k : Nat) : Call → Prop
  | .feedInput (some d) => k ≤ d.length
  | .feedInputWithTs (some d) _ => k ≤ d.length
  | _ => True

instance (k : Nat) : (call : Call) → Decidable (call.Long k)
  | .feedInput (some d) => inferInstanceAs (Decidable (k ≤ d.length))
  | .feedInputWithTs (some d) _ => inferInstanceAs (Decidable (k ≤ d.length))
  | .feedInput none => .isTrue trivial
  | .feedInputWithTs none _ => .isTrue trivial
  | .process _ => .isTrue trivial
  | .nextEvent _ => .isTrue trivial
  | .getStats _ => .isTrue trivial
  | .reset => .isTrue trivial

theorem Call.Long.le {k : Nat} {call : Call} {d : List UInt8} {ts : UInt64} (h : call.Long k)
    (hfeeds : call.Feeds d ts) : k ≤ d.length := by
  rcases hfeeds with rfl | ⟨rfl, _⟩
  · exact h
  · exact h

theorem Module.Flows.of_create {k : Nat} {calls : List Call} {role : Role}
    (hreset : .reset ∉ calls) (hlong : ∀ call ∈ calls, call.Long k)
    (hroom : ∀ v ∈ m.visits (m.create role) calls, Roomy events v)
    (hfew : (made events (m.visits (m.create role) calls)).length < 2 ^ 32) :
    m.Flows events k (m.create role) calls where
  created := ⟨role, _, _, _, _, rfl⟩
  reset := hreset
  long := fun call hcall _ _ hfeeds => (hlong call hcall).le hfeeds
  room := hroom
  few := hfew

/-- A module that returns from every packet of at least `k` bytes. -/
def Module.Returns (m : Module X) (k : Nat) : Prop :=
  ∀ c d ts, k ≤ d.length → ∃ c', m.body c d ts = .ok c'

theorem Module.Returns.mono {k n : Nat} (h : m.Returns k) (hle : k ≤ n) : m.Returns n :=
  fun c d ts hlen => h c d ts (hle.trans hlen)

/-- A call returns from every context if the packet in it does. -/
theorem Module.step_returns {call : Call}
    (h : ∀ c d ts, call.Feeds d ts → m.minLen ≤ d.length → ∃ c', m.body c d ts = .ok c')
    (c : Ctx X) : ∃ c' r, m.step (some c) call = .ok (some c', r) := by
  have hfeeds : ∀ d ts, call.Feeds d ts → ∃ c' r, m.step (some c) call = .ok (some c', r) := by
    intro d ts hcall
    by_cases hlen : m.minLen ≤ d.length
    · rcases h c d ts hcall hlen with ⟨c', hbody⟩
      exact ⟨c', _, step_of_body hcall hlen hbody⟩
    · rw [step_feed hcall, feedInputWithTs_of_short (Nat.lt_of_not_le hlen)]
      exact ⟨c, _, rfl⟩
  cases call with
  | feedInput d =>
      cases d with
      | none => exact ⟨c, _, rfl⟩
      | some d => exact hfeeds d 0 (.inr ⟨rfl, rfl⟩)
  | feedInputWithTs d ts =>
      cases d with
      | none => exact ⟨c, _, rfl⟩
      | some d => exact hfeeds d ts (.inl rfl)
  | process ts => exact ⟨_, _, rfl⟩
  | nextEvent e =>
      cases e with
      | none => exact ⟨c, _, rfl⟩
      | some e => exact ⟨_, _, rfl⟩
  | getStats s => exact ⟨c, _, rfl⟩
  | reset => exact ⟨_, _, rfl⟩

theorem Module.Returns.step {k : Nat} (h : m.Returns k) {call : Call}
    (hlong : ∀ d ts, call.Feeds d ts → m.minLen ≤ d.length → k ≤ d.length) (c : Ctx X) :
    ∃ c' r, m.step (some c) call = .ok (some c', r) :=
  Module.step_returns (fun c d ts hcall hlen => h c d ts (hlong d ts hcall hlen)) c

theorem value_qinit (role : Role) (r : RawRing Event maxQ) (sendTs : UInt64) (own : X) (size : Nat)
    (k : Counter) : Counter.value (m.qinit role r sendTs own size) k = 0 := by
  cases k <;> rfl

/-- The run lemma: a counter is the number of events made that belong to it. -/
theorem Module.Booked.value_eq (h : m.Booked kind events) {c c' : Ctx X} {calls : List Call}
    (hzero : ∀ k, Counter.value c k = 0) (hreset : .reset ∉ calls)
    (hplay : m.play (some c) calls = .ok (some c')) (k : Counter) :
    Counter.value c' k = UInt32.ofNat (tally kind k (made events (m.visits c calls))) := by
  refine Module.play_history
    (J := fun c past => ∀ k, Counter.value c k = UInt32.ofNat (tally kind k (made events past)))
    ?_ hzero hplay k
  rintro ⟨c₀, call⟩ hv past c₁ r hpast hstep k
  rw [made_concat, tally_append, UInt32.ofNat_add, ← hpast]
  rcases call.plain_or with hplain | ⟨e, rfl⟩ | rfl
  · exact (h.plain hplain hstep).counts k
  · -- Taking an event changes the queue only.
    cases hstep
    rw [h.next]
    cases k <;> exact (UInt32.add_zero _).symm
  · exact absurd (Module.call_of_mem_visits hv) hreset

/-- What a run has made of the events of a context and of its counters. -/
theorem Module.Flows.books {k : Nat} {c : Ctx X} {calls : List Call}
    (h : m.Flows events k c calls) (hbooked : m.Booked kind events) (hreturns : m.Returns k) :
    ∃ c', m.play (some c) calls = .ok (some c') ∧
      delivered (m.visits c calls) ++ c'.queued = made events (m.visits c calls) ∧
      ∀ k, (Counter.value c' k).toNat = tally kind k (made events (m.visits c calls)) := by
  rcases h.created with ⟨role, r, sendTs, own, size, rfl⟩
  have hsteps := fun call hmem =>
    hreturns.step (fun d ts hcall _ => h.long call hmem d ts hcall)
  rcases Module.play_returns hsteps (m.qinit role r sendTs own size) with ⟨c', hplay⟩
  refine ⟨c', hplay, ?_, fun k => ?_⟩
  · exact delivered_append_queued hbooked.queues (QueueCtx.queued_init _ _ _ _ _) h.reset h.room
      hplay
  · rw [hbooked.value_eq (value_qinit role r sendTs own size) h.reset hplay]
    exact UInt32.toNat_ofNat_of_lt' (Nat.lt_of_le_of_lt List.countP_le_length h.few)

/-- In every run whose packets have at least `k` bytes, the events that were returned and those
still queued number for each of the types what the statistics say. -/
def Module.Accounts (m : Module X) (events : Ctx X → Call → List Event) (k : Nat)
    (counts : List (EventType × (Stats → Nat))) : Prop :=
  ∀ c calls, m.Flows events k c calls → ∃ c', m.play (some c) calls = .ok (some c') ∧
    ∀ p ∈ counts, (delivered (m.visits c calls) ++ c'.queued).countP (fun e => e.type = p.1) =
      p.2 (c'.stats (m.lossPct c'))

/-- The rule for a module, from what the counters have to do with the types. -/
theorem accounts_of_booked {k : Nat} {counts : List (EventType × (Stats → Nat))}
    (hbooked : m.Booked kind events) (hreturns : m.Returns k)
    (hcounts : ∀ (c : Ctx X) es, (∀ k, (Counter.value c k).toNat = tally kind k es) →
      ∀ p ∈ counts, es.countP (fun e => e.type = p.1) = p.2 (c.stats (m.lossPct c))) :
    m.Accounts events k counts := by
  intro c calls hflows
  rcases hflows.books hbooked hreturns with ⟨c', hplay, hevents, hvalues⟩
  refine ⟨c', hplay, ?_⟩
  rw [hevents]
  exact hcounts c' _ hvalues

/-- The events of a type are those of a counter. -/
theorem countP_type_eq {t : EventType} {k : Counter}
    (h : ∀ e, e.type = t ↔ kind e = some k) (es : List Event) :
    es.countP (fun e => e.type = t) = tally kind k es :=
  List.countP_congr fun e _ => by
    rw [decide_eq_true_iff, decide_eq_true_iff]
    exact h e

end Probe

/-! ## The modules -/

open Lib

namespace Ping

open Probe (Role Event EventType Call Counter Posting tally)

def kind (e : Event) : Option Counter :=
  match e.type with
  | .pingReply => some .replies
  | .pingTimeout => some .timeouts
  | _ => none

def events (c : Ctx) : Call → List Event :=
  Call.events (fun d ts => (packetEvent c d ts).toList) fun ts =>
    (c.expiry (timeoutEvent c) ts).toList

theorem posting_packet {c c' : Ctx} {d : List UInt8} {ts : UInt64} (hlen : 8 ≤ d.length)
    (hbody : feedBody c d ts = .ok c') : Posting kind c c' (packetEvent c d ts).toList := by
  rw [feedBody_eq hlen] at hbody
  cases hbody
  have hsame : 8 ≤ d.length ∧ (d.getD 0 0 = 0 ∨ d.getD 0 0 = 129) ∧ c.role = .requester ↔
      IsEchoReply d ∧ c.role = .requester := and_assoc.symm
  rw [fed, packetEvent]
  by_cases hreply : IsEchoReply d ∧ c.role = .requester
  · rw [if_pos hreply, if_pos (hsame.2 hreply)]
    exact .reply c.own rfl
  · rw [if_neg hreply, if_neg (hsame.not.2 hreply)]
    split_ifs
    · exact .request c ts _
    · exact .same c

theorem posts : ping.Posts kind events :=
  Probe.posts_events (m := ping) (fun _ _ _ _ hlen hbody => posting_packet hlen hbody)
    (fun c d ts (hshort : d.length < 8) => by
      rw [packetEvent, if_neg fun h => Nat.not_le_of_lt hshort h.1]
      rfl)
    (fun c ts => Posting.expire rfl ts c.own)

theorem booked : ping.Booked kind events :=
  posts.booked

theorem returns : ping.Returns 8 :=
  fun c _ ts hlen => ⟨_, feedBody_eq hlen c ts⟩

theorem kind_eq_replies (e : Event) : e.type = .pingReply ↔ kind e = some .replies := by
  rw [kind]
  cases e.type <;> decide

theorem kind_eq_timeouts (e : Event) : e.type = .pingTimeout ↔ kind e = some .timeouts := by
  rw [kind]
  cases e.type <;> decide

end Ping

namespace Dnsdiag

open Probe (Role Event EventType Call Counter Posting tally)

def kind (e : Event) : Option Counter :=
  match e.type with
  | .dnsReply => some .replies
  | .faultDetected => some .timeouts
  | _ => none

def events (c : Ctx) : Call → List Event :=
  Call.events (fun d ts => (packetEvent c d ts).toList) fun _ => []

theorem posting_packet {c c' : Ctx} {d : List UInt8} {ts : UInt64} (hlen : 12 ≤ d.length)
    (hbody : feedBody c d ts = .ok c') : Posting kind c c' (packetEvent c d ts).toList := by
  rw [feedBody_eq hlen] at hbody
  cases hbody
  rw [fed, packetEvent]
  cases hrole : c.role with
  | requester =>
      simp only [hlen, and_true, if_true, reduceCtorEq, if_false]
      split_ifs with hfault hreply
      · exact (Posting.stamp c ts).trans (.timeout c.own rfl)
      · exact (Posting.stamp c ts).trans (.reply c.own rfl)
      · exact .stamp c ts
  | responder =>
      simp only [reduceCtorEq, and_false, if_false, if_true]
      exact (Posting.stamp c ts).trans (.request _ ts _)

theorem posts : dnsdiag.Posts kind events :=
  Probe.posts_events (m := dnsdiag) (fun _ _ _ _ hlen hbody => posting_packet hlen hbody)
    (fun c d ts (hshort : d.length < 12) => by
      rw [packetEvent, if_neg fun h => Nat.not_le_of_lt hshort h.1]
      rfl)
    (fun c _ => .same c)

theorem booked : dnsdiag.Booked kind events :=
  posts.booked

theorem returns : dnsdiag.Returns 12 :=
  fun c _ ts hlen => ⟨_, feedBody_eq hlen c ts⟩

theorem kind_eq_replies (e : Event) : e.type = .dnsReply ↔ kind e = some .replies := by
  rw [kind]
  cases e.type <;> decide

theorem kind_eq_timeouts (e : Event) : e.type = .faultDetected ↔ kind e = some .timeouts := by
  rw [kind]
  cases e.type <;> decide

end Dnsdiag

namespace Traceroute

open Probe (Role Event EventType Call Counter Posting tally)

/-- Replies and timeouts make events of one type; only a timeout has a reason. -/
def kind (e : Event) : Option Counter :=
  match e.type with
  | .tracerouteHop => if e.reason = "" then some .replies else some .timeouts
  | _ => none

def events (c : Ctx) : Call → List Event :=
  Call.events (fun d ts => (packetEvent c d ts).toList) fun ts =>
    (c.expiry (timeoutEvent c) ts).toList

theorem posting_packet {c c' : Ctx} {d : List UInt8} {ts : UInt64} (hlen : 20 ≤ d.length)
    (hbody : feedBody c d ts = .ok c') : Posting kind c c' (packetEvent c d ts).toList := by
  have hin := Probe.of_returned (fun hout => feedBody_of_not_inBounds hlen hout ts) hbody
  rw [feedBody_eq hlen hin] at hbody
  cases hbody
  have htype : 21 ≤ d.length := by
    have hne := hin.1
    omega
  have hsame : 21 ≤ d.length ∧ (d.getD 20 0 = 11 ∨ d.getD 20 0 = 3) ∧ c.role = .requester ↔
      IsHopReply d ∧ c.role = .requester := and_iff_right htype
  rw [fed, packetEvent]
  by_cases hreply : IsHopReply d ∧ c.role = .requester
  · rw [if_pos hreply, if_pos (hsame.2 hreply)]
    exact (Posting.stamp c ts).trans (.reply _ rfl)
  · rw [if_neg hreply, if_neg (hsame.not.2 hreply)]
    split_ifs
    · exact (Posting.stamp c ts).trans (.request _ ts _)
    · exact .stamp c ts

theorem posts : traceroute.Posts kind events :=
  Probe.posts_events (m := traceroute) (fun _ _ _ _ hlen hbody => posting_packet hlen hbody)
    (fun c d ts (hshort : d.length < 20) => by
      rw [packetEvent, if_neg fun h => by omega]
      rfl)
    (fun c ts => Posting.expire rfl ts _)

theorem booked : traceroute.Booked kind events :=
  posts.booked

theorem returns : traceroute.Returns 30 := fun c d ts hlen =>
  ⟨_, feedBody_eq ((by decide : 20 ≤ 30).trans hlen) ⟨by omega, fun _ _ => hlen⟩ ts⟩

theorem countP_hop (es : List Event) :
    es.countP (fun e => e.type = .tracerouteHop) =
      tally kind .replies es + tally kind .timeouts es := by
  induction es with
  | nil => rfl
  | cons e es ih =>
      rw [tally, tally] at ih ⊢
      rw [List.countP_cons, List.countP_cons, List.countP_cons, ih]
      -- The event is none of the type, or belongs to one of the counters.
      have hone : (if decide (e.type = .tracerouteHop) = true then 1 else 0) =
          (if decide (kind e = some .replies) = true then 1 else 0) +
            if decide (kind e = some .timeouts) = true then 1 else 0 := by
        rw [kind]
        cases e.type <;> by_cases hreason : e.reason = "" <;> simp [hreason]
      omega

end Traceroute

namespace Arprecon

open Probe (Role Event EventType Call Counter Posting tally)

def kind (e : Event) : Option Counter :=
  match e.type with
  | .arpReply => some .replies
  | .arpAnomaly => some .timeouts
  | .arpSpoof => some .dups
  | _ => none

/-- How many of the neighbours a reply conflicts with, if it is compared with them. -/
def conflictsOf (c : Ctx) (d : List UInt8) : Nat :=
  if c.own.neighCount < maxNeigh then c.own.conflicts c.own.slots (announcement d) else 0

/-- A reply makes a requester's event, and a spoof event for each conflict. -/
def packetEvents (c : Ctx) (d : List UInt8) (ts : UInt64) : List Event :=
  if IsReply d ∧ c.role = .requester then
    { replyEvent d with latencyMs := c.latency ts } ::
      List.replicate (conflictsOf c d) spoofEvent
  else []

def events (c : Ctx) : Call → List Event :=
  Call.events (packetEvents c) fun ts => (c.expiry timeoutEvent ts).toList

theorem posting_learnt (c : Ctx) (d : List UInt8) :
    Posting kind c (learnt c d) (List.replicate (conflictsOf c d) spoofEvent) := by
  rw [learnt, conflictsOf]
  split_ifs with hroom
  · refine .dups _ List.length_replicate ?_
    intro e he
    rw [List.eq_of_mem_replicate he]
    rfl
  · exact .same c

theorem posting_packet {c c' : Ctx} {d : List UInt8} {ts : UInt64}
    (hbody : feedBody c d ts = .ok c') : Posting kind c c' (packetEvents c d ts) := by
  have hin := Probe.of_returned (fun hout => feedBody_of_not_inBounds hout ts) hbody
  rw [feedBody_eq hin] at hbody
  cases hbody
  rw [fed, packetEvents]
  by_cases hreply : IsReply d ∧ c.role = .requester
  · rw [if_pos hreply, if_pos hreply]
    have hfirst : Posting kind c (c.reply (replyEvent d) ts)
        [{ replyEvent d with latencyMs := c.latency ts }] := .reply c.own rfl
    exact hfirst.trans (posting_learnt (c.reply (replyEvent d) ts) d)
  · rw [if_neg hreply, if_neg hreply]
    split_ifs
    · exact .request c ts c.own
    · exact .same c

theorem posts : arprecon.Posts kind events :=
  Probe.posts_events (m := arprecon) (fun _ _ _ _ _ hbody => posting_packet hbody)
    (fun c d ts (hshort : d.length < 14) => by
      rw [packetEvents, if_neg fun h => absurd h.1.1 (by omega)])
    (fun c ts => Posting.expire rfl ts c.own)

theorem booked : arprecon.Booked kind events :=
  posts.booked

theorem returns : arprecon.Returns 32 :=
  fun _ d ts hlen => ⟨_, feedBody_eq (fun _ _ => ⟨by omega, fun _ => hlen⟩) ts⟩

theorem kind_eq_replies (e : Event) : e.type = .arpReply ↔ kind e = some .replies := by
  rw [kind]
  cases e.type <;> decide

theorem kind_eq_timeouts (e : Event) : e.type = .arpAnomaly ↔ kind e = some .timeouts := by
  rw [kind]
  cases e.type <;> decide

theorem kind_eq_dups (e : Event) : e.type = .arpSpoof ↔ kind e = some .dups := by
  rw [kind]
  cases e.type <;> decide

end Arprecon

open Ping (ping)
open Arping (arping)
open Traceroute (traceroute)
open Dnsdiag (dnsdiag)
open Arprecon (arprecon)
open Probe (countP_type_eq accounts_of_booked delivered made)

/-- Events and counters account for each other in ping, dnsdiag, traceroute and arprecon. -/
theorem events_account_for_counters :
    ping.Accounts Ping.events 42
      [(.pingReply, fun s => s.replies.toNat), (.pingTimeout, fun s => s.timeouts.toNat)] ∧
    dnsdiag.Accounts Dnsdiag.events 42
      [(.dnsReply, fun s => s.replies.toNat), (.faultDetected, fun s => s.timeouts.toNat)] ∧
    traceroute.Accounts Traceroute.events 42
      [(.tracerouteHop, fun s => s.replies.toNat + s.timeouts.toNat)] ∧
    arprecon.Accounts Arprecon.events 42
      [(.arpReply, fun s => s.replies.toNat), (.arpAnomaly, fun s => s.timeouts.toNat),
        (.arpSpoof, fun s => s.duplicates.toNat)] := by
  refine ⟨?_, ?_, ?_, ?_⟩
  · refine accounts_of_booked Ping.booked (Ping.returns.mono (by decide)) ?_
    intro c es hvalues
    simp only [List.forall_mem_cons, List.not_mem_nil, false_implies, implies_true, and_true,
      countP_type_eq Ping.kind_eq_replies, countP_type_eq Ping.kind_eq_timeouts]
    exact ⟨(hvalues .replies).symm, (hvalues .timeouts).symm⟩
  · refine accounts_of_booked Dnsdiag.booked (Dnsdiag.returns.mono (by decide)) ?_
    intro c es hvalues
    simp only [List.forall_mem_cons, List.not_mem_nil, false_implies, implies_true, and_true,
      countP_type_eq Dnsdiag.kind_eq_replies, countP_type_eq Dnsdiag.kind_eq_timeouts]
    exact ⟨(hvalues .replies).symm, (hvalues .timeouts).symm⟩
  · refine accounts_of_booked Traceroute.booked (Traceroute.returns.mono (by decide)) ?_
    intro c es hvalues
    simp only [List.forall_mem_cons, List.not_mem_nil, false_implies, implies_true, and_true,
      Traceroute.countP_hop, ← hvalues]
    rfl
  · refine accounts_of_booked Arprecon.booked (Arprecon.returns.mono (by decide)) ?_
    intro c es hvalues
    simp only [List.forall_mem_cons, List.not_mem_nil, false_implies, implies_true, and_true,
      countP_type_eq Arprecon.kind_eq_replies, countP_type_eq Arprecon.kind_eq_timeouts,
      countP_type_eq Arprecon.kind_eq_dups]
    exact ⟨(hvalues .replies).symm, (hvalues .timeouts).symm, (hvalues .dups).symm⟩

/-- An ARP reply of 72 bytes, from `10.0.0.1` with this MAC. -/
def replyFrame (last : UInt8) : List UInt8 :=
  List.replicate 12 0 ++ [8, 6, 0, 0, 0, 0, 0, 0, 0, 2, 2, 0, 0, 0, 0, last, 10, 0, 0, 1] ++
    List.replicate 40 0

/-- Two replies with different MACs, the first event of which is read, and some time. -/
def spoofedRun : List Probe.Call :=
  [.feedInput (some (replyFrame 1)), .feedInputWithTs (some (replyFrame 7)) 40,
    .nextEvent (some {}), .process 5000]

/-- Two requests that time out, the first of which is read in between. -/
def expiredRun : List Probe.Call :=
  [.feedInputWithTs (some (8 :: List.replicate 41 0)) 1, .process 2000, .nextEvent (some {}),
    .feedInputWithTs (some (8 :: List.replicate 41 0)) 3000, .process 5000]

/-- Timeouts of ping, and replies to arprecon with a conflict between them. -/
theorem events_account_for_counters_expired :
    (∃ c, ping.play (some (ping.create .responder)) expiredRun = .ok (some c) ∧ c.timeouts = 2 ∧
      (delivered (ping.visits (ping.create .responder) expiredRun) ++ c.queued).countP
        (fun e => e.type = .pingTimeout) = c.timeouts.toNat) ∧
    ∃ c, arprecon.play (some (arprecon.create .requester)) spoofedRun = .ok (some c) ∧
      c.replies = 2 ∧ c.dups = 1 ∧
      (delivered (arprecon.visits (arprecon.create .requester) spoofedRun) ++ c.queued).countP
        (fun e => e.type = .arpReply) = c.replies.toNat ∧
      (delivered (arprecon.visits (arprecon.create .requester) spoofedRun) ++ c.queued).countP
        (fun e => e.type = .arpSpoof) = c.dups.toNat := by
  have hexpired : ping.Flows Ping.events 42 (ping.create .responder) expiredRun :=
    .of_create (by simp [expiredRun]) (by decide) (by decide) (by decide)
  have hspoofed : arprecon.Flows Arprecon.events 42 (arprecon.create .requester) spoofedRun :=
    .of_create (by simp [spoofedRun]) (by decide) (by decide) (by decide)
  have hp : ping.play (some (ping.create .responder)) expiredRun = .ok (some _) := rfl
  have ha : arprecon.play (some (arprecon.create .requester)) spoofedRun = .ok (some _) := rfl
  rcases events_account_for_counters.1 _ _ hexpired with ⟨c, hplay, hcounts⟩
  rcases events_account_for_counters.2.2.2 _ _ hspoofed with ⟨c', hplay', hcounts'⟩
  constructor
  · cases hplay.symm.trans hp
    exact ⟨_, hp, rfl, hcounts (.pingTimeout, fun s => s.timeouts.toNat) (by simp)⟩
  · cases hplay'.symm.trans ha
    exact ⟨_, ha, rfl, rfl, hcounts' (.arpReply, fun s => s.replies.toNat) (by simp),
      hcounts' (.arpSpoof, fun s => s.duplicates.toNat) (by simp)⟩

/-! ## Arping -/

namespace Arping

open Probe (Role Event EventType Call Counter Posting tally)

/-- What has the type of a duplicate is a timeout, and nothing is a duplicate. -/
def kind (e : Event) : Option Counter :=
  match e.type with
  | .arpReply => some .replies
  | .arpDuplicate => some .timeouts
  | _ => none

def events (c : Ctx) : Call → List Event :=
  Call.events (fun d ts => (packetEvent c d ts).toList) fun ts =>
    (c.expiry timeoutEvent ts).toList

/-- The event of a frame that the module stays inside. -/
theorem packetEvent_eq {c : Ctx} {d : List UInt8} (hin : InBounds c d) (ts : UInt64) :
    packetEvent c d ts =
      if IsArp 2 d ∧ c.role = .requester then
        some { type := .arpReply, srcMac := bytesOf 6 (d.drop 22), latencyMs := c.latency ts }
      else if IsNdp 136 d ∧ c.role = .requester then
        some { type := .arpReply, srcMac := advertisedMac d, latencyMs := c.latency ts }
      else none := by
  rw [packetEvent]
  by_cases harp : IsArp 2 d ∧ c.role = .requester
  · have hmac := (hin harp.2).1 harp.1
    have hevent := harp.1.2
    rw [if_pos harp, arpEvent,
      if_pos ⟨hmac, hevent.1, hevent.2.1, hevent.2.2, harp.2⟩]
    rfl
  · have hnone : arpEvent c d ts = none := if_neg fun h =>
      harp ⟨⟨by omega, h.2.1, h.2.2.1, h.2.2.2.1⟩, h.2.2.2.2⟩
    rw [if_neg harp, hnone, Option.none_or]
    by_cases hndp : IsNdp 136 d ∧ c.role = .requester
    · have hmac := (hin hndp.2).2 hndp.1
      have hevent := hndp.1
      rw [if_pos hndp, ndpEvent,
        if_pos ⟨hevent.1, hmac, ⟨hevent.2.1, hevent.2.2.1⟩, hevent.2.2.2, hndp.2⟩]
      rfl
    · rw [if_neg hndp]
      exact if_neg fun h => hndp ⟨⟨h.1, h.2.2.1.1, h.2.2.1.2, h.2.2.2.1⟩, h.2.2.2.2⟩

theorem posting_packet {c c' : Ctx} {d : List UInt8} {ts : UInt64} (hlen : 14 ≤ d.length)
    (hbody : feedBody c d ts = .ok c') : Posting kind c c' (packetEvent c d ts).toList := by
  have hin := Probe.of_returned (fun hout => feedBody_of_not_inBounds hlen hout ts) hbody
  rw [feedBody_eq hlen hin] at hbody
  cases hbody
  rw [fed, packetEvent_eq hin]
  split_ifs
  · exact .reply c.own rfl
  · exact .reply c.own rfl
  · exact .request c ts c.own
  · exact .same c

theorem posts : arping.Posts kind events :=
  Probe.posts_events (m := arping) (fun _ _ _ _ hlen hbody => posting_packet hlen hbody)
    (fun c d ts (hshort : d.length < 14) => by
      rw [packetEvent_eq (inBounds_of_short hshort), if_neg fun h => absurd h.1.1 (by omega),
        if_neg fun h => absurd h.1.1 (by omega)]
      rfl)
    (fun c ts => Posting.expire rfl ts c.own)

theorem booked : arping.Booked kind events :=
  posts.booked

theorem returns : arping.Returns 72 := fun c d ts hlen =>
  ⟨_, feedBody_eq ((by decide : 14 ≤ 72).trans hlen)
    (fun _ => ⟨fun _ => by omega, fun _ => by omega⟩) ts⟩

theorem kind_eq_replies (e : Event) : e.type = .arpReply ↔ kind e = some .replies := by
  rw [kind]
  cases e.type <;> decide

theorem kind_eq_timeouts (e : Event) : e.type = .arpDuplicate ↔ kind e = some .timeouts := by
  rw [kind]
  cases e.type <;> decide

theorem tally_dups (es : List Event) : tally kind .dups es = 0 := by
  refine List.countP_eq_zero.2 fun e _ => ?_
  rw [kind]
  cases e.type <;> decide

/-- A step makes an event of the type of a duplicate exactly if a probe expires. -/
theorem tally_timeouts_eq_zero_iff (c : Ctx) (call : Call) :
    tally kind .timeouts (events c call) = 0 ↔ ∀ now, call = .process now → ¬ c.Expired now := by
  have hpacket : ∀ d ts, tally kind .timeouts (packetEvent c d ts).toList = 0 := by
    intro d ts
    rw [packetEvent, arpEvent, ndpEvent]
    split_ifs <;> rfl
  by_cases hprocess : ∃ ts, call = .process ts
  · rcases hprocess with ⟨ts, rfl⟩
    have hevents : events c (.process ts) = (c.expiry timeoutEvent ts).toList := rfl
    rw [hevents, Probe.Ctx.expiry]
    by_cases hexpired : c.Expired ts
    · rw [if_pos hexpired]
      exact iff_of_false (by decide) fun h => h ts rfl hexpired
    · rw [if_neg hexpired]
      refine iff_of_true rfl ?_
      intro now hcall
      cases hcall
      exact hexpired
  · refine iff_of_true ?_ fun now hcall => (hprocess ⟨now, hcall⟩).elim
    cases call with
    | feedInput d =>
        cases d with
        | none => rfl
        | some d => exact hpacket d 0
    | feedInputWithTs d ts =>
        cases d with
        | none => rfl
        | some d => exact hpacket d ts
    | process ts => exact (hprocess ⟨ts, rfl⟩).elim
    | nextEvent e => rfl
    | getStats s => rfl
    | reset => rfl

/-- The events of a run account for the counters exactly if no probe expires in it. -/
theorem duplicates_counted_iff {c : Ctx} {calls : List Call}
    (h : arping.Flows events 72 c calls) :
    ∃ c', arping.play (some c) calls = .ok (some c') ∧
      ((delivered (arping.visits c calls) ++ c'.queued).countP (fun e => e.type = .arpReply) =
          (c'.stats (arping.lossPct c')).replies.toNat ∧
        (delivered (arping.visits c calls) ++ c'.queued).countP (fun e => e.type = .arpDuplicate) =
          (c'.stats (arping.lossPct c')).duplicates.toNat ↔
        ∀ v ∈ arping.visits c calls, ∀ now, v.2 = .process now → ¬ v.1.Expired now) := by
  rcases h.books booked returns with ⟨c', hplay, hevents, hvalues⟩
  refine ⟨c', hplay, ?_⟩
  have hreplies : (c'.stats (arping.lossPct c')).replies.toNat = _ := hvalues .replies
  have hdups : (c'.stats (arping.lossPct c')).duplicates.toNat = _ := hvalues .dups
  rw [hevents, countP_type_eq kind_eq_replies, countP_type_eq kind_eq_timeouts, hreplies, hdups,
    tally_dups]
  -- The replies are counted in any case; the type of a duplicate is that of the timeouts.
  have hzero : tally kind .timeouts (made events (arping.visits c calls)) = 0 ↔
      ∀ v ∈ arping.visits c calls, tally kind .timeouts (events v.1 v.2) = 0 := by
    simp only [tally, made, List.countP_eq_zero, List.mem_flatMap, forall_exists_index, and_imp]
    exact ⟨fun hall v hv e he => hall e v hv he, fun hall e v hv he => hall v hv e he⟩
  rw [hzero]
  simp only [true_and, tally_timeouts_eq_zero_iff]

/-- A neighbour advertisement of 72 bytes. -/
def advertisement : List UInt8 :=
  List.replicate 12 0 ++ [0x86, 0xdd] ++ List.replicate 26 0 ++ [136] ++ List.replicate 31 0

/-- An ARP reply, an advertisement and another reply, the first event of which is read, and some
time. -/
def answeredRun : List Call :=
  [.feedInputWithTs (some (replyFrame 1)) 3, .feedInput (some advertisement),
    .feedInputWithTs (some (replyFrame 7)) 40, .nextEvent (some {}), .process 5000]

theorem duplicates_counted_answered :
    ∃ c', arping.play (some (arping.create .requester)) answeredRun = .ok (some c') ∧
      c'.replies = 3 ∧
      (delivered (arping.visits (arping.create .requester) answeredRun) ++ c'.queued).countP
        (fun e => e.type = .arpReply) = (c'.stats (arping.lossPct c')).replies.toNat ∧
      (delivered (arping.visits (arping.create .requester) answeredRun) ++ c'.queued).countP
        (fun e => e.type = .arpDuplicate) =
          (c'.stats (arping.lossPct c')).duplicates.toNat := by
  have hflows : arping.Flows events 72 (arping.create .requester) answeredRun :=
    .of_create (by simp [answeredRun]) (by decide) (by decide) (by decide)
  have ha : arping.play (some (arping.create .requester)) answeredRun = .ok (some _) := rfl
  rcases duplicates_counted_iff hflows with ⟨c', hplay, hiff⟩
  cases hplay.symm.trans ha
  refine ⟨_, ha, rfl, hiff.2 ?_⟩
  -- A requester does not wait for anything.
  have hwaiting : ∀ v ∈ arping.visits (arping.create .requester) answeredRun,
      v.1.waiting = false := by decide
  intro v hv now _ hexpired
  exact absurd (hwaiting v hv) (by rw [hexpired.1]; decide)

/-- An ARP request, and nothing but its type and opcode. -/
def requestFrame : List UInt8 :=
  List.replicate 12 0 ++ [8, 6, 0, 0, 0, 0, 0, 0, 0, 1] ++ List.replicate 50 0

/-- A request that times out is reported as a duplicate, and none is counted. -/
theorem timeout_reported_as_duplicate :
    arping.Flows events 72 (arping.create .responder)
      [.feedInputWithTs (some requestFrame) 1, .process 2000] ∧
    ∃ c', arping.play (some (arping.create .responder))
        [.feedInputWithTs (some requestFrame) 1, .process 2000] = .ok (some c') ∧
      (delivered (arping.visits (arping.create .responder)
          [.feedInputWithTs (some requestFrame) 1, .process 2000]) ++
        c'.queued).countP (fun e => e.type = .arpDuplicate) ≠
          (c'.stats (arping.lossPct c')).duplicates.toNat :=
  ⟨.of_create (by simp) (by decide) (by decide) (by decide), _, rfl, by decide⟩

end Arping
end Netdiag
