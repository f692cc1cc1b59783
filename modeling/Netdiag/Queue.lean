import Netdiag.Lib.Loop
import Netdiag.Lib.Ring

/-!
# Queue — contexts that queue events

Every module of the library keeps its events in the same ring (`qinit`, `qpush`, `qpop`) of at
most 32 slots, and hands them out one at a time (`*_next_event`).  The two netlink parsers have
nothing else in their contexts than a role and this ring: `QueueCtx` is that context, over the
type of the events, and each parser instantiates it.
-/

namespace Netdiag

open Lib

/-- `NFCT_MAX_Q`, `NL80211_MAX_Q`. -/
abbrev maxQ : Nat := 32

/-- The size that both parsers take for a size of `0` holds an event. -/
theorem dfltQsz_pos : 0 < 16 := by decide

/-- A context; the fields `qsz`, `q`, `head`, `tail` and `cnt` of the source form the ring. -/
structure QueueCtx (R E : Type) where
  role : R
  ring : Ring E maxQ

namespace QueueCtx

variable {R E : Type}

/-- The queued events, oldest first. -/
def queued (c : QueueCtx R E) : List E := c.ring.items

/-- How many events the queue holds when it is full. -/
def qsz (c : QueueCtx R E) : Nat := c.ring.qsz

/-- How many events the queue has room for. -/
def free (c : QueueCtx R E) : Nat := c.qsz - c.queued.length

/-! ## The operations of the code -/

/-- `qinit`, with the size that it takes for a size of `0`. -/
def init (dflt : Nat) (hdflt : 0 < dflt) (role : R) (r : RawRing E maxQ) (size : Nat) :
    QueueCtx R E :=
  { role := role, ring := Ring.init dflt hdflt (by decide) r size }

/-- `qpush`. -/
def push (c : QueueCtx R E) (e : E) : QueueCtx R E × Int :=
  ({ c with ring := (c.ring.push e).1 }, (c.ring.push e).2)

/-- `qpop`: the return value, the context, and what stands in `*e` afterwards. -/
def pop (c : QueueCtx R E) (e : E) : Int × QueueCtx R E × E :=
  match c.ring.pop with
  | (_, none) => (0, c, e)
  | (ring, some front) => (1, { c with ring := ring }, front)

/-- `*_next_event`; the arguments are the pointers, `none` for `NULL`. -/
def next (ctx : Option (QueueCtx R E)) (event : Option E) :
    Int × Option (QueueCtx R E) × Option E :=
  match ctx, event with
  | some c, some e =>
      match c.pop e with
      | (r, c', e') => (r, some c', some e')
  | _, _ => (-1, ctx, event)

/-- Queue events one after the other, dropping those that find the queue full. -/
def pushAll (c : QueueCtx R E) (es : List E) : QueueCtx R E :=
  es.foldl (fun c e => (c.push e).1) c

/-! ## What they do to the queued events -/

theorem pushAll_append (c : QueueCtx R E) (es fs : List E) :
    c.pushAll (es ++ fs) = (c.pushAll es).pushAll fs :=
  List.foldl_append

theorem ring_pushAll (c : QueueCtx R E) (es : List E) :
    (c.pushAll es).ring = c.ring.pushAll es := by
  induction es generalizing c with
  | nil => rfl
  | cons e es ih => exact ih (c.push e).1

@[simp] theorem role_pushAll (c : QueueCtx R E) (es : List E) :
    (c.pushAll es).role = c.role := by
  induction es generalizing c with
  | nil => rfl
  | cons e es ih => exact ih (c.push e).1

@[simp] theorem qsz_pushAll (c : QueueCtx R E) (es : List E) : (c.pushAll es).qsz = c.qsz := by
  rw [qsz, ring_pushAll, Ring.qsz_pushAll, ← qsz]

/-- The queue keeps the first of the events, as many as it had room for. -/
theorem queued_pushAll (c : QueueCtx R E) (es : List E) :
    (c.pushAll es).queued = c.queued ++ es.take c.free := by
  rw [queued, ring_pushAll, Ring.items_pushAll]
  rfl

/-- The queue keeps an event that it has room for. -/
theorem queued_pushAll_one {c : QueueCtx R E} (h : 0 < c.free) (e : E) :
    (c.pushAll [e]).queued = c.queued ++ [e] := by
  rw [queued_pushAll, List.take_of_length_le h]

/-- An empty queue takes as many events as its size. -/
theorem queued_pushAll_of_nil {c : QueueCtx R E} (h : c.queued = []) (es : List E)
    (hlen : es.length ≤ c.qsz) : (c.pushAll es).queued = es := by
  have hfree : c.free = c.qsz := by
    rw [free, h]
    rfl
  rw [queued_pushAll, h, hfree, List.take_of_length_le hlen, List.nil_append]

/-- The `i`-th event that came after those that were there. -/
theorem getElem?_queued_pushAll (c : QueueCtx R E) (es : List E) (i : Nat) :
    (c.pushAll es).queued[c.queued.length + i]? = (es.take c.free)[i]? := by
  rw [queued_pushAll, List.getElem?_append_right (Nat.le_add_right _ _),
    Nat.add_sub_cancel_left]

theorem queued_init (dflt : Nat) (hdflt : 0 < dflt) (role : R) (r : RawRing E maxQ)
    (size : Nat) : (init dflt hdflt role r size).queued = [] :=
  RawRing.items_init dflt r size

/-- The queue has room for at least one event. -/
theorem qsz_pos (c : QueueCtx R E) : 0 < c.qsz :=
  c.ring.2.qsz_pos

/-- Setting the size to what it is keeps it. -/
theorem qsz_init_self (dflt : Nat) (hdflt : 0 < dflt) (c : QueueCtx R E) (role : R) :
    (init dflt hdflt role c.ring.1 c.qsz).qsz = c.qsz := by
  have hpos : c.qsz ≠ 0 := Nat.pos_iff_ne_zero.1 c.qsz_pos
  have hle : ¬ c.qsz > maxQ := Nat.not_lt_of_le c.ring.2.qsz_le
  show (if (if c.qsz ≠ 0 then c.qsz else dflt) > maxQ then maxQ
    else if c.qsz ≠ 0 then c.qsz else dflt) = c.qsz
  rw [if_pos hpos, if_neg hle]

/-- `qpop` on an empty queue. -/
theorem pop_of_nil {c : QueueCtx R E} (h : c.queued = []) (e : E) : c.pop e = (0, c, e) := by
  have hfront := c.ring.pop_snd
  rw [show c.ring.items = [] from h] at hfront
  rcases hpop : c.ring.pop with ⟨ring, _ | front⟩
  · simp only [pop, hpop]
  · rw [hpop] at hfront
    cases hfront

/-- `qpop` takes the oldest event. -/
theorem pop_of_cons {c : QueueCtx R E} {front : E} {rest : List E}
    (h : c.queued = front :: rest) (e : E) :
    ∃ c', c.pop e = (1, c', front) ∧ c'.role = c.role ∧ c'.queued = rest ∧ c'.qsz = c.qsz := by
  have hfront := c.ring.pop_snd
  have hitems := c.ring.items_pop
  have hqsz := c.ring.qsz_pop
  rw [show c.ring.items = front :: rest from h] at hfront hitems
  rcases hpop : c.ring.pop with ⟨ring, _ | front'⟩
  · rw [hpop] at hfront
    cases hfront
  · rw [hpop] at hfront hitems hqsz
    obtain rfl : front' = front := Option.some.inj hfront
    refine ⟨{ c with ring := ring }, ?_, rfl, hitems, hqsz⟩
    simp only [pop, hpop]

theorem queued_pop (c : QueueCtx R E) (e : E) : (c.pop e).2.1.queued = c.queued.tail := by
  cases hq : c.queued with
  | nil =>
      rw [pop_of_nil hq]
      exact hq
  | cons front rest =>
      rcases pop_of_cons hq e with ⟨c', hpop, _, hrest, _⟩
      rw [hpop, hrest]
      rfl

@[simp] theorem qsz_pop (c : QueueCtx R E) (e : E) : (c.pop e).2.1.qsz = c.qsz := by
  cases hq : c.queued with
  | nil => rw [pop_of_nil hq]
  | cons front rest =>
      rcases pop_of_cons hq e with ⟨c', hpop, _, _, hqsz⟩
      rw [hpop, hqsz]

/-- `*_next_event` on an empty queue. -/
theorem next_of_nil {c : QueueCtx R E} (h : c.queued = []) (e : E) :
    next (some c) (some e) = (0, some c, some e) := by
  simp only [next, pop_of_nil h]

/-- `*_next_event` takes the oldest event. -/
theorem next_of_cons {c : QueueCtx R E} {front : E} {rest : List E}
    (h : c.queued = front :: rest) (e : E) :
    ∃ c', next (some c) (some e) = (1, some c', some front) ∧
      c'.queued = rest ∧ c'.qsz = c.qsz ∧ c'.role = c.role := by
  rcases pop_of_cons h e with ⟨c', hpop, hrole, hrest, hqsz⟩
  refine ⟨c', ?_, hrest, hqsz, hrole⟩
  simp only [next, hpop]

/-! What its return value says. -/

theorem queued_of_next_eq_one {c c' : QueueCtx R E} {e ev : E}
    (h : next (some c) (some e) = (1, some c', some ev)) : c.queued = ev :: c'.queued := by
  cases hq : c.queued with
  | nil =>
      have hempty := next_of_nil hq e
      cases hempty.symm.trans h
  | cons front rest =>
      rcases next_of_cons hq e with ⟨c'', hfront, hrest, _⟩
      cases hfront.symm.trans h
      rw [hrest]

theorem queued_of_next_eq_zero {c c' : QueueCtx R E} {e e' : E}
    (h : next (some c) (some e) = (0, some c', some e')) : c.queued = [] ∧ c' = c := by
  cases hq : c.queued with
  | nil =>
      have hempty := next_of_nil hq e
      cases hempty.symm.trans h
      exact ⟨rfl, rfl⟩
  | cons front rest =>
      rcases next_of_cons hq e with ⟨c'', hfront, _, _⟩
      cases hfront.symm.trans h

/-- What the caller's event holds at first does not matter to the context. -/
theorem next_ctx_eq (c : QueueCtx R E) (e e' : E) :
    (next (some c) (some e)).2.1 = (next (some c) (some e')).2.1 := by
  rw [next, next, pop, pop]
  rcases c.ring.pop with ⟨ring, _ | front⟩
  · rfl
  · rfl

/-! ## Draining -/

/-- One turn of `while (next_event(ctx, &ev) == 1) …`, collecting the events. -/
def drainTurn (e : E) : QueueCtx R E × List E →
    Except Empty (Turn (QueueCtx R E × List E) (List E))
  | (c, seen) =>
      match next (some c) (some e) with
      | (r, some c', some front) =>
          if r = 1 then .ok (.again (c', seen ++ [front])) else .ok (.leave seen)
      | _ => .ok (.leave seen)

/-- Draining a queue until `next_event` returns `0` yields these events. -/
def Drains (c : QueueCtx R E) (es : List E) : Prop :=
  ∀ e, ∃ fuel, Loop.run (drainTurn e) fuel (c, []) = some (.ok es)

/-- Draining yields the queued events, each once and oldest first. -/
theorem drains_queued (c : QueueCtx R E) : c.Drains c.queued := by
  -- By induction on the queued events; each turn moves the oldest to what was seen.
  intro e
  have key : ∀ (es : List E) (c : QueueCtx R E) (seen : List E), c.queued = es →
      Loop.run (drainTurn e) (es.length + 1) (c, seen) = some (.ok (seen ++ es)) := by
    intro es
    induction es with
    | nil =>
        intro c seen h
        have hturn : drainTurn e (c, seen) = .ok (.leave seen) := by
          rw [drainTurn, next_of_nil h e]
          rfl
        rw [List.append_nil]
        exact Loop.run_leave hturn _
    | cons front rest ih =>
        intro c seen h
        rcases next_of_cons h e with ⟨c', hnext, hrest, _⟩
        have hturn : drainTurn e (c, seen) = .ok (.again (c', seen ++ [front])) := by
          rw [drainTurn, hnext]
          rfl
        rw [List.length_cons, Loop.run_again hturn, ih c' _ hrest, List.append_assoc]
        rfl
  exact ⟨_, key c.queued c [] rfl⟩

theorem Drains.eq_queued {c : QueueCtx R E} {es : List E} (h : c.Drains es) (e : E) :
    es = c.queued := by
  -- A loop has one result.
  rcases h e with ⟨fuel₁, h₁⟩
  rcases c.drains_queued e with ⟨fuel₂, h₂⟩
  exact Except.ok.inj (Loop.run_unique h₁ h₂)

end QueueCtx
end Netdiag
