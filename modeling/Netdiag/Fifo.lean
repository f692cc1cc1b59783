import Netdiag.Lib.Fifo
import Netdiag.Lib.Run
import Netdiag.Parsers.Calls
import Netdiag.Probe.Arping
import Netdiag.Probe.Arprecon
import Netdiag.Probe.Dnsdiag
import Netdiag.Probe.Ping
import Netdiag.Probe.Traceroute

/-!
# Fifo — the queues of all modules

The log of a run of calls has what became of each event that a call has tried to queue, what each
call of `*_next_event` returned, and the resets.  In every run of every module the fields of the
ring fit together, and the log is one of a bounded first-in first-out queue: what
`*_next_event` returns are the events that were accepted since the last reset, in order
(`rings_refine_fifo`).
-/

namespace Netdiag

open Lib

/-! ## Logs of a context -/

namespace QueueCtx

variable {R E : Type}

/-- What becomes of events that are queued one after the other. -/
def pushLog (c : QueueCtx R E) : List E → List (Entry E)
  | [] => []
  | e :: es => (if (c.push e).2 = 0 then .accepted e else .refused e) :: (c.push e).1.pushLog es

/-- The entry for what `*_next_event` has returned. -/
def nextEntry (r : Int) (e : E) : Entry E :=
  if r = 1 then .returned e else .empty

/-- The log is one of a bounded queue that holds the events of the context. -/
def Keeps (c : QueueCtx R E) (log : List (Entry E)) : Prop :=
  Fifo c.qsz log c.queued

theorem Keeps.init (dflt : Nat) (hdflt : 0 < dflt) (role : R) (r : RawRing E maxQ) (size : Nat) :
    (init dflt hdflt role r size).Keeps [] := by
  rw [Keeps, queued_init]
  exact .nil

theorem Keeps.pushAll {c : QueueCtx R E} {log : List (Entry E)} (h : c.Keeps log) (es : List E) :
    (c.pushAll es).Keeps (log ++ c.pushLog es) := by
  -- By induction on the events; each adds its entry to the log.
  induction es generalizing c log with
  | nil =>
      rw [pushLog, List.append_nil]
      exact h
  | cons e es ih =>
      have hfirst : (c.push e).1.Keeps (log ++ [Fifo.pushed c.ring e]) := Fifo.push h e
      have hrest := ih hfirst
      rw [List.append_assoc] at hrest
      exact hrest

theorem Keeps.pop {c c' : QueueCtx R E} {log : List (Entry E)} (h : c.Keeps log) {e e' : E}
    {r : Int} (hpop : c.pop e = (r, c', e')) : c'.Keeps (log ++ [nextEntry r e']) := by
  rw [Keeps] at h
  cases hq : c.queued with
  | nil =>
      -- Nothing is taken, and the log says that the queue was empty.
      rw [pop_of_nil hq] at hpop
      cases hpop
      rw [Keeps, hq]
      rw [hq] at h
      exact h.empty
  | cons front rest =>
      rcases pop_of_cons hq e with ⟨c'', hfront, _, hrest, hqsz⟩
      cases hfront.symm.trans hpop
      rw [Keeps, hqsz, hrest]
      rw [hq] at h
      exact h.returned

theorem Keeps.reset {c : QueueCtx R E} {log : List (Entry E)} (h : c.Keeps log) (dflt : Nat)
    (hdflt : 0 < dflt) (role : R) :
    (QueueCtx.init dflt hdflt role c.ring.1 c.qsz).Keeps (log ++ [.reset]) := by
  rw [Keeps, qsz_init_self, queued_init]
  exact Fifo.reset h

/-! ## What the ring of a context is -/

/-- After operations with this log, the fields of the ring fit together, and what `next` returns,
given an event to write to, is the first event that was accepted since the last reset and has not
been returned.  Between the pushes of one call the fields fit together as well: each push is one of
a `Ring`, which cannot be built otherwise. -/
structure RingFifo (c : QueueCtx R E) (next : E → Int × Option E) (log : List (Entry E)) :
    Prop where
  qsz_pos : 1 ≤ c.ring.1.qsz
  qsz_le : c.ring.1.qsz ≤ 32
  head_lt : c.ring.1.head < c.ring.1.qsz
  tail_eq : c.ring.1.tail = (c.ring.1.head + c.ring.1.cnt) % c.ring.1.qsz
  cnt_le : c.ring.1.cnt ≤ c.ring.1.qsz
  head_slot : c.ring.1.head < 32
  tail_slot : c.ring.1.tail < 32
  refines : ∃ items, Fifo c.ring.1.qsz log items
  returned_prefix : (ledger log).returned <+: (ledger log).accepted
  next_eq_zero : ∀ e, (next e).1 = 0 ↔ (ledger log).returned = (ledger log).accepted
  next_event : ∀ e, (next e).1 ≠ 0 →
    (next e).1 = 1 ∧ (next e).2 = (ledger log).accepted[(ledger log).returned.length]?

/-- What `qpop` returns, as `*_next_event` passes it on. -/
theorem Keeps.ringFifo {c : QueueCtx R E} {log : List (Entry E)} (h : c.Keeps log)
    {next : E → Int × Option E} (hnext : ∀ e, next e = ((c.pop e).1, some (c.pop e).2.2)) :
    c.RingFifo next log := by
  have hwf := c.ring.2
  have htail : c.ring.1.tail < c.ring.1.qsz := by
    rw [hwf.tail_eq]
    exact Nat.mod_lt _ hwf.qsz_pos
  refine
    { qsz_pos := hwf.qsz_pos
      qsz_le := hwf.qsz_le
      head_lt := hwf.head_lt
      tail_eq := hwf.tail_eq
      cnt_le := hwf.cnt_le
      head_slot := Nat.lt_of_lt_of_le hwf.head_lt hwf.qsz_le
      tail_slot := Nat.lt_of_lt_of_le htail hwf.qsz_le
      refines := ⟨_, h⟩
      returned_prefix := h.returned_prefix
      next_eq_zero := fun e => ?_
      next_event := fun e hne => ?_ }
  · -- `qpop` returns zero exactly if the queue is empty.
    rw [← h.eq_nil_iff, hnext]
    cases hq : c.queued with
    | nil => simp [pop_of_nil hq]
    | cons front rest =>
        rcases pop_of_cons hq e with ⟨c', hpop, _⟩
        simp [hpop]
  · -- Otherwise it returns the front, which the log knows as the next of the accepted events.
    rw [← h.head?_eq]
    rw [hnext] at hne ⊢
    cases hq : c.queued with
    | nil =>
        rw [pop_of_nil hq] at hne
        exact absurd rfl hne
    | cons front rest =>
        rcases pop_of_cons hq e with ⟨c', hpop, _⟩
        rw [hpop]
        exact ⟨rfl, rfl⟩

end QueueCtx

/-! ## The runs of the parsers -/

namespace Parser

variable {R E C : Type}

/-- One call on a context, with its entries in the log. -/
inductive Logged (P : Parser R E C) :
    QueueCtx R E → Call E → QueueCtx R E → List (Entry E) → Prop where
  | feed {c : QueueCtx R E} {data : Option (List UInt8)} {r : Int} {es : List E} :
      P.feedInput (some c) data = .ok (r, some (c.pushAll es)) →
        Logged P c (.feedInput data) (c.pushAll es) (c.pushLog es)
  | next {c c' : QueueCtx R E} {e e' : E} {r : Int} :
      QueueCtx.next (some c) (some e) = (r, some c', some e') →
        Logged P c (.nextEvent (some e)) c' [QueueCtx.nextEntry r e']
  | null {c : QueueCtx R E} : Logged P c (.nextEvent none) c []
  | reset {c c' : QueueCtx R E} : P.reset (some c) = some c' → Logged P c .reset c' [.reset]

/-- Every call that returns has a log, and after every run of calls on a new context the log is
one of a bounded queue. -/
def RefinesFifo (P : Parser R E C) : Prop :=
  (∀ c call ctx r, P.step (some c) call = .ok (ctx, r) →
    ∃ c' log, ctx = some c' ∧ P.Logged c call c' log) ∧
  ∀ role config c log, Run P.Logged (P.createWithConfig role config) c log →
    c.RingFifo (fun e => ((QueueCtx.next (some c) (some e)).1,
      (QueueCtx.next (some c) (some e)).2.2)) log

variable {P : Parser R E C}

theorem Lawful.logged (hP : P.Lawful) {c : QueueCtx R E} {call : Call E}
    {ctx : Option (QueueCtx R E)} {r : Result E} (h : P.step (some c) call = .ok (ctx, r)) :
    ∃ c' log, ctx = some c' ∧ P.Logged c call c' log := by
  cases call with
  | feedInput data =>
      cases data with
      | none =>
          have hnull : P.feedInput (some c) none = .ok (-1, some (c.pushAll [])) :=
            hP.null (some c) none (.inr rfl)
          rw [step, hnull] at h
          cases h
          exact ⟨_, _, rfl, .feed hnull⟩
      | some D =>
          rcases hP.feed_cases D with ⟨es, hfed⟩ | ⟨e, hfed⟩
          · rw [step, hfed c] at h
            cases h
            exact ⟨_, _, rfl, .feed (hfed c)⟩
          · -- A buffer that fails on every context does not return here.
            rw [step, hfed c] at h
            cases h
  | nextEvent event =>
      cases event with
      | none =>
          cases h
          exact ⟨c, _, rfl, .null⟩
      | some e =>
          cases h
          exact ⟨_, _, rfl, .next rfl⟩
  | reset =>
      rw [step, hP.reset] at h
      cases h
      exact ⟨_, _, rfl, .reset (hP.reset _)⟩

/-- The step lemma: the log of the queue goes on with the entries of the call. -/
theorem Lawful.keeps_step (hP : P.Lawful) {c c' : QueueCtx R E} {call : Call E}
    {log more : List (Entry E)} (h : c.Keeps log) (hstep : P.Logged c call c' more) :
    c'.Keeps (log ++ more) := by
  cases hstep with
  | feed _ => exact h.pushAll _
  | next hnext =>
      simp only [QueueCtx.next] at hnext
      cases hnext
      exact h.pop rfl
  | null =>
      rw [List.append_nil]
      exact h
  | reset hreset =>
      rw [hP.reset] at hreset
      cases hreset
      exact h.reset 16 dfltQsz_pos c.role

theorem Lawful.refinesFifo (hP : P.Lawful) : P.RefinesFifo := by
  refine ⟨fun c call ctx r h => hP.logged h, fun role config c log hrun => ?_⟩
  rcases hP.create role config with ⟨r, size, hcreate⟩
  have hkeeps : c.Keeps log := by
    refine hrun.invariant (fun _ _ _ _ _ h hstep => hP.keeps_step h hstep) ?_
    rw [hcreate]
    exact .init _ _ _ _ _
  exact hkeeps.ringFifo fun e => rfl

end Parser

/-! ## The runs of the probe modules -/

namespace Probe

variable {X : Type}

/-- One call on a context, with its entries in the log. -/
inductive Module.Logged (m : Module X) :
    Ctx X → Call → Ctx X → List (Entry Event) → Prop where
  | next {c c' : Ctx X} {e e' : Event} {r : Int} :
      Ctx.nextEvent (some c) (some e) = (r, some c', some e') →
        Logged m c (.nextEvent (some e)) c' [QueueCtx.nextEntry r e']
  | reset {c c' : Ctx X} : m.reset (some c) = some c' → Logged m c .reset c' [.reset]
  | plain {c c' : Ctx X} {call : Call} {r : Result} {es : List Event} : call.Plain →
      m.step (some c) call = .ok (some c', r) → c'.toQueueCtx = c.toQueueCtx.pushAll es →
        Logged m c call c' (c.toQueueCtx.pushLog es)

def Module.RefinesFifo (m : Module X) : Prop :=
  (∀ c call ctx r, m.step (some c) call = .ok (ctx, r) →
    ∃ c' log, ctx = some c' ∧ m.Logged c call c' log) ∧
  ∀ role config c log, Run m.Logged (m.createWithConfig role config) c log →
    c.toQueueCtx.RingFifo (fun e => ((Ctx.nextEvent (some c) (some e)).1,
      (Ctx.nextEvent (some c) (some e)).2.2)) log

variable {m : Module X}

theorem Coupling.logged (k : Coupling m) {c : Ctx X} {call : Call} {ctx : Option (Ctx X)}
    {r : Result} (h : m.step (some c) call = .ok (ctx, r)) :
    ∃ c' log, ctx = some c' ∧ m.Logged c call c' log := by
  rcases Module.step_transition h with ⟨c', rfl, _⟩
  refine ⟨c', ?_⟩
  rcases call.plain_or with hplain | ⟨e, rfl⟩ | rfl
  · rcases k.pushes_step hplain h with ⟨es, _, hpush⟩
    exact ⟨_, rfl, .plain hplain h hpush⟩
  · cases h
    exact ⟨_, rfl, .next rfl⟩
  · cases h
    exact ⟨_, rfl, .reset rfl⟩

/-- The step lemma: the log of the queue goes on with the entries of the call. -/
theorem Module.Logged.keeps {c c' : Ctx X} {call : Call} {log more : List (Entry Event)}
    (hstep : m.Logged c call c' more) (h : c.toQueueCtx.Keeps log) :
    c'.toQueueCtx.Keeps (log ++ more) := by
  cases hstep with
  | next hnext =>
      cases hnext
      exact h.pop rfl
  | reset hreset =>
      cases hreset
      exact h.reset 8 dfltProbeQsz_pos c.role
  | plain _ _ hpush =>
      rw [hpush]
      exact h.pushAll _

theorem Coupling.refinesFifo (k : Coupling m) : m.RefinesFifo := by
  refine ⟨fun c call ctx r h => k.logged h, fun role config c log hrun => ?_⟩
  have hkeeps : c.toQueueCtx.Keeps log :=
    hrun.invariant (J := fun c log => c.toQueueCtx.Keeps log)
      (fun _ _ _ _ _ h hstep => hstep.keeps h) (.init 8 dfltProbeQsz_pos _ _ _)
  exact hkeeps.ringFifo fun e => rfl

end Probe

/-- In all seven modules, on every platform: whatever calls are made on a new context of whatever
size, the ring is a bounded queue. -/
theorem rings_refine_fifo :
    (∀ p, (Nfct.parser p).RefinesFifo) ∧ (∀ p, (Nl80211.parser p).RefinesFifo) ∧
    Ping.ping.RefinesFifo ∧ Arping.arping.RefinesFifo ∧ Traceroute.traceroute.RefinesFifo ∧
    Dnsdiag.dnsdiag.RefinesFifo ∧ Arprecon.arprecon.RefinesFifo :=
  ⟨fun p => (Nfct.parser_lawful p).refinesFifo, fun p => (Nl80211.parser_lawful p).refinesFifo,
    Ping.coupling.refinesFifo, Arping.coupling.refinesFifo, Traceroute.coupling.refinesFifo,
    Dnsdiag.coupling.refinesFifo, Arprecon.coupling.refinesFifo⟩

end Netdiag
