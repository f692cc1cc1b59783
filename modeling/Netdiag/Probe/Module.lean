import Netdiag.Lib.Observe
import Netdiag.Probe.Context

/-!
# Module — the public functions of a probe module

Ping, arping, traceroute, dnsdiag and arprecon have the same public functions.  A `Module` is what
they differ in: the fields of their own, the shortest packet that they look at, and what they do
with a packet and with the time.  The public functions are written over a module, each file
instantiates them, and `step` is the system that callers drive with them.
-/

namespace Netdiag
namespace Probe

open Lib

/-- A probe module with contexts `Ctx X`. -/
structure Module (X : Type) where
  /-- The module's own fields in zeroed memory. -/
  calloc : X
  /-- What its `qinit` does to them. -/
  clear : X → X
  minLen : Nat
  /-- `*_feed_input_with_ts` after the checks of its arguments. -/
  body : Ctx X → List UInt8 → UInt64 → Except Fault (Ctx X)
  /-- `*_process`. -/
  tick : Ctx X → UInt64 → Ctx X
  lossPct : Ctx X → UInt32
  /-- What the public functions that only this module has may do to a context. -/
  aside : Ctx X → Ctx X → Prop := fun _ _ => False

namespace Module

variable {X : Type} (m : Module X)

/-! ## Public functions

The arguments are the pointers, `none` for `NULL`. -/

def qinit (role : Role) (r : RawRing Event maxQ) (sendTs : UInt64) (own : X) (s : Nat) : Ctx X :=
  Ctx.init role r sendTs (m.clear own) s

def createWithConfig (role : Role) (config : Option Config) : Ctx X :=
  m.qinit role (RawRing.calloc {}) 0 m.calloc (match config with
    | some config => config.eventQueueSize
    | none => 8)

def create (role : Role) : Ctx X :=
  m.createWithConfig role none

def reset (ctx : Option (Ctx X)) : Option (Ctx X) :=
  ctx.map fun c => m.qinit c.role c.ring.1 c.sendTs c.own c.qsz

def feedInputWithTs (ctx : Option (Ctx X)) (d : Option (List UInt8)) (ts : UInt64) :
    Except Fault (Int × Option (Ctx X)) :=
  match ctx, d with
  | some c, some d =>
      if d.length < m.minLen then
        return (-1, some c)
      else do
        let c ← m.body c d ts
        return (0, some c)
  | _, _ => return (-1, ctx)

def feedInput (ctx : Option (Ctx X)) (d : Option (List UInt8)) :
    Except Fault (Int × Option (Ctx X)) :=
  m.feedInputWithTs ctx d 0

def process (ctx : Option (Ctx X)) (ts : UInt64) : Int × Option (Ctx X) :=
  match ctx with
  | some c => (0, some (m.tick c ts))
  | none => (-1, none)

def getStats (ctx : Option (Ctx X)) (s : Option Stats) : Int × Option Stats :=
  match ctx, s with
  | some c, some _ => (0, some (c.stats (m.lossPct c)))
  | _, _ => (-1, s)

end Module

/-- `*_next_event`, which is the same in all modules. -/
def Ctx.nextEvent {X : Type} (ctx : Option (Ctx X)) (e : Option Event) :
    Int × Option (Ctx X) × Option Event :=
  match ctx, e with
  | some c, some e =>
      match c.pop e with
      | (r, q, e') => (r, some { c with toQueueCtx := q }, some e')
  | _, _ => (-1, ctx, e)

theorem Ctx.nextEvent_of_pop {X : Type} {c : Ctx X} {e e' : Event} {r : Int}
    {q : QueueCtx Role Event} (h : c.pop e = (r, q, e')) :
    Ctx.nextEvent (some c) (some e) = (r, some { c with toQueueCtx := q }, some e') := by
  rw [Ctx.nextEvent, h]

/-! ## The system of a context and its caller -/

/-- The calls that take a context through its work. -/
inductive Call
  | feedInput (d : Option (List UInt8))
  | feedInputWithTs (d : Option (List UInt8)) (ts : UInt64)
  | process (ts : UInt64)
  | nextEvent (e : Option Event)
  | getStats (s : Option Stats)
  | reset

/-- The call neither takes an event nor resets the context. -/
def Call.Plain (call : Call) : Prop :=
  (∀ e, call ≠ .nextEvent (some e)) ∧ call ≠ .reset

theorem Call.plain_or (call : Call) :
    call.Plain ∨ (∃ e, call = .nextEvent (some e)) ∨ call = .reset := by
  cases call with
  | nextEvent e =>
      cases e with
      | none => exact .inl ⟨nofun, nofun⟩
      | some e => exact .inr (.inl ⟨e, rfl⟩)
  | reset => exact .inr (.inr rfl)
  | feedInput d => exact .inl ⟨nofun, nofun⟩
  | feedInputWithTs d ts => exact .inl ⟨nofun, nofun⟩
  | process ts => exact .inl ⟨nofun, nofun⟩
  | getStats s => exact .inl ⟨nofun, nofun⟩

/-- What a call returns, and what it leaves behind the pointers it was given. -/
inductive Result
  | code (r : Int)
  | event (r : Int) (e : Option Event)
  | stats (r : Int) (s : Option Stats)
  | done
  deriving DecidableEq

namespace Module

variable {X : Type} (m : Module X)

def step (ctx : Option (Ctx X)) : Call → Except Fault (Option (Ctx X) × Result)
  | .feedInput d => do
      let (r, ctx) ← m.feedInput ctx d
      return (ctx, .code r)
  | .feedInputWithTs d ts => do
      let (r, ctx) ← m.feedInputWithTs ctx d ts
      return (ctx, .code r)
  | .process ts => return ((m.process ctx ts).2, .code (m.process ctx ts).1)
  | .nextEvent e =>
      let (r, ctx, e) := Ctx.nextEvent ctx e
      return (ctx, .event r e)
  | .getStats s => return (ctx, .stats (m.getStats ctx s).1 (m.getStats ctx s).2)
  | .reset => return (m.reset ctx, .done)

/-- What some calls one after the other make of a context. -/
def play (ctx : Option (Ctx X)) : List Call → Except Fault (Option (Ctx X))
  | [] => .ok ctx
  | call :: calls => do
      let (ctx, _) ← m.step ctx call
      play ctx calls

/-- The contexts that some history of operations leads to. -/
inductive Reachable : Ctx X → Prop
  | create (role : Role) (config : Option Config) : Reachable (m.createWithConfig role config)
  | call {c c' : Ctx X} {call : Call} {r : Result} :
      Reachable c → m.step (some c) call = .ok (some c', r) → Reachable c'
  | aside {c c' : Ctx X} : Reachable c → m.aside c c' → Reachable c'

end Module

/-! ## What a call can do -/

/-- The call hands a packet to the module. -/
def Call.Feeds (call : Call) (d : List UInt8) (ts : UInt64) : Prop :=
  call = .feedInputWithTs (some d) ts ∨ call = .feedInput (some d) ∧ ts = 0

namespace Module

variable {X : Type} {m : Module X}

/-- Everything that a call can do to a context, with its result. -/
inductive Transition (m : Module X) (c : Ctx X) (call : Call) : Ctx X → Result → Prop
  | fed {d : List UInt8} {ts : UInt64} {c' : Ctx X} : call.Feeds d ts → m.minLen ≤ d.length →
      m.body c d ts = .ok c' → Transition m c call c' (.code 0)
  | short {d : List UInt8} {ts : UInt64} : call.Feeds d ts → d.length < m.minLen →
      Transition m c call c (.code (-1))
  | ticked {ts : UInt64} : call = .process ts → Transition m c call (m.tick c ts) (.code 0)
  | popped {e e' : Event} {r : Int} {q : QueueCtx Role Event} : call = .nextEvent (some e) →
      c.pop e = (r, q, e') →
        Transition m c call { c with toQueueCtx := q } (.event r (some e'))
  | looked {s : Stats} : call = .getStats (some s) →
      Transition m c call c (.stats 0 (some (c.stats (m.lossPct c))))
  | null {r : Result} : call = .feedInput none ∨ (∃ ts, call = .feedInputWithTs none ts) ∨
      call = .nextEvent none ∨ call = .getStats none → Transition m c call c r
  | cleared : call = .reset →
      Transition m c call (m.qinit c.role c.ring.1 c.sendTs c.own c.qsz) .done

theorem feedInputWithTs_of_short {c : Ctx X} {d : List UInt8} (h : d.length < m.minLen)
    (ts : UInt64) : m.feedInputWithTs (some c) (some d) ts = .ok (-1, some c) :=
  if_pos h

theorem feedInputWithTs_of_le {c : Ctx X} {d : List UInt8} (h : m.minLen ≤ d.length)
    (ts : UInt64) :
    m.feedInputWithTs (some c) (some d) ts = m.body c d ts >>= fun c => .ok (0, some c) :=
  if_neg (Nat.not_lt_of_le h)

theorem feed_transition {c : Ctx X} {call : Call} {d : List UInt8} {ts : UInt64} {r : Int}
    {p : Option (Ctx X)} (hcall : call.Feeds d ts)
    (h : m.feedInputWithTs (some c) (some d) ts = .ok (r, p)) :
    ∃ c', p = some c' ∧ Transition m c call c' (.code r) := by
  by_cases hlen : d.length < m.minLen
  · rw [feedInputWithTs_of_short hlen] at h
    cases h
    exact ⟨c, rfl, .short hcall hlen⟩
  · have hle := Nat.le_of_not_lt hlen
    rw [feedInputWithTs_of_le hle] at h
    cases hbody : m.body c d ts with
    | error e =>
        rw [hbody] at h
        cases h
    | ok c' =>
        rw [hbody] at h
        cases h
        exact ⟨c', rfl, .fed hcall hle hbody⟩

theorem step_feed {c : Ctx X} {call : Call} {d : List UInt8} {ts : UInt64}
    (hcall : call.Feeds d ts) :
    m.step (some c) call =
      m.feedInputWithTs (some c) (some d) ts >>= fun x => .ok (x.2, .code x.1) := by
  rcases hcall with rfl | ⟨rfl, rfl⟩ <;> rfl

/-- A packet that the module looks at and returns from. -/
theorem step_of_body {c c' : Ctx X} {call : Call} {d : List UInt8} {ts : UInt64}
    (hcall : call.Feeds d ts) (hlen : m.minLen ≤ d.length) (hbody : m.body c d ts = .ok c') :
    m.step (some c) call = .ok (some c', .code 0) := by
  rw [step_feed hcall, feedInputWithTs_of_le hlen, hbody]
  rfl

/-- The inversion lemma for a call that returns. -/
theorem step_transition {c : Ctx X} {call : Call} {p : Option (Ctx X)} {r : Result}
    (h : m.step (some c) call = .ok (p, r)) : ∃ c', p = some c' ∧ Transition m c call c' r := by
  -- Both functions that take a packet are the one with a time.
  have hfeeds : ∀ d ts, call.Feeds d ts → ∃ c', p = some c' ∧ Transition m c call c' r := by
    intro d ts hcall
    rw [step_feed hcall] at h
    cases hfed : m.feedInputWithTs (some c) (some d) ts with
    | error e =>
        rw [hfed] at h
        cases h
    | ok x =>
        rw [hfed] at h
        cases h
        exact feed_transition hcall hfed
  cases call with
  | feedInput d =>
      cases d with
      | none =>
          cases h
          exact ⟨c, rfl, .null (.inl rfl)⟩
      | some d => exact hfeeds d 0 (.inr ⟨rfl, rfl⟩)
  | feedInputWithTs d ts =>
      cases d with
      | none =>
          cases h
          exact ⟨c, rfl, .null (.inr (.inl ⟨ts, rfl⟩))⟩
      | some d => exact hfeeds d ts (.inl rfl)
  | process ts =>
      cases h
      exact ⟨_, rfl, .ticked rfl⟩
  | nextEvent e =>
      cases e with
      | none =>
          cases h
          exact ⟨c, rfl, .null (.inr (.inr (.inl rfl)))⟩
      | some e =>
          cases h
          exact ⟨_, rfl, .popped rfl rfl⟩
  | getStats s =>
      cases s with
      | none =>
          cases h
          exact ⟨c, rfl, .null (.inr (.inr (.inr rfl)))⟩
      | some s =>
          cases h
          exact ⟨c, rfl, .looked rfl⟩
  | reset =>
      cases h
      exact ⟨_, rfl, .cleared rfl⟩

/-- Taking an event does not change whose context it is. -/
theorem role_of_pop {c q : QueueCtx Role Event} {e e' : Event} {r : Int}
    (h : c.pop e = (r, q, e')) : q.role = c.role := by
  cases hq : c.queued with
  | nil =>
      rw [QueueCtx.pop_of_nil hq] at h
      cases h
      rfl
  | cons front rest =>
      rcases QueueCtx.pop_of_cons hq e with ⟨q', hpop, hrole, _, _⟩
      rw [hpop] at h
      cases h
      exact hrole

/-- The rule for what holds of every context that a history of operations leads to. -/
theorem Reachable.invariant {I : Ctx X → Prop}
    (hinit : ∀ role r s, I (m.qinit role r 0 m.calloc s))
    (hbody : ∀ c d ts, I c → OkAll I (m.body c d ts))
    (htick : ∀ c ts, I c → I (m.tick c ts))
    (hqueue : ∀ (c : Ctx X) q, I c → q.role = c.role → I { c with toQueueCtx := q })
    (hreset : ∀ (c : Ctx X) r s, I c → I (m.qinit c.role r c.sendTs c.own s))
    (haside : ∀ c c', I c → m.aside c c' → I c') {c : Ctx X} (h : m.Reachable c) : I c := by
  induction h with
  | create role config => exact hinit role _ _
  | @call c c' call r _ hstep ih =>
      rcases step_transition hstep with ⟨c'', hptr, htrans⟩
      obtain rfl : c' = c'' := Option.some.inj hptr
      -- Three of the transitions leave the context as it is.
      cases htrans with
      | fed _ _ hfed => exact hbody _ _ _ ih _ hfed
      | short => exact ih
      | ticked => exact htick _ _ ih
      | popped _ hpop => exact hqueue _ _ ih (role_of_pop hpop)
      | looked => exact ih
      | null => exact ih
      | cleared => exact hreset _ _ _ ih
  | aside _ hside ih => exact haside _ _ ih hside

theorem play_append (ctx : Option (Ctx X)) (calls more : List Call) :
    m.play ctx (calls ++ more) = m.play ctx calls >>= fun ctx => m.play ctx more := by
  induction calls generalizing ctx with
  | nil => rfl
  | cons call calls ih =>
      rw [List.cons_append, play, play]
      cases m.step ctx call with
      | error e => rfl
      | ok x => exact ih x.1

/-- The rule for sequences of calls, and what they have gathered on the way. -/
theorem play_invariant {α : Type} {J : Ctx X → List α → Prop} (gather : Call → Option α)
    {calls : List Call}
    (hstep : ∀ call ∈ calls, ∀ c as c' r, J c as → m.step (some c) call = .ok (some c', r) →
      J c' (as ++ (gather call).toList)) {c c' : Ctx X} {as : List α} (h : J c as)
    (hplay : m.play (some c) calls = .ok (some c')) : J c' (as ++ calls.filterMap gather) := by
  induction calls generalizing c as with
  | nil =>
      cases hplay
      rw [List.filterMap_nil, List.append_nil]
      exact h
  | cons call calls ih =>
      rw [play] at hplay
      cases hfirst : m.step (some c) call with
      | error e =>
          rw [hfirst] at hplay
          cases hplay
      | ok x =>
          rcases x with ⟨p, r⟩
          rcases step_transition hfirst with ⟨c₁, rfl, _⟩
          rw [hfirst] at hplay
          -- What the first call gathers comes in front of what the others do.
          have hnext := hstep call List.mem_cons_self c as c₁ r h hfirst
          have hrest := ih (fun call' hmem => hstep call' (List.mem_cons_of_mem _ hmem)) hnext hplay
          have hgather : (call :: calls).filterMap gather =
              (gather call).toList ++ calls.filterMap gather := by
            rw [List.filterMap_cons]
            cases gather call <;> rfl
          rw [hgather, ← List.append_assoc]
          exact hrest

end Module
end Probe
end Netdiag
