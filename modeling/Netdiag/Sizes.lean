import Netdiag.Buffer
import Netdiag.Fifo
import Netdiag.Probe.Survey
import Netdiag.Probe.Watch

/-!
# Sizes — what the size of a queue changes

Whoever creates a context chooses how many events it holds, and whoever reads it chooses when.
Neither changes what the context counts: the statistics are those of the packets and times alone
(`stats_ignore_queue`).  And a larger queue only ever gives more: whatever calls are made, an event
that is got from the smaller one is got from the larger one too, or is still in it
(`larger_queue_keeps`).
-/

namespace Netdiag

open Lib

/-! ## Systems with queues of any size -/

section Systems

variable {ε σ ι ο E : Type}

/-- Of two systems that differ in the size of their queues and take the same calls, the one with
the larger queue gives all that the other one gives, or still has it. -/
def KeepsMore (step : σ → ι → Except ε (σ × ο)) (new : Nat → σ) (dflt : Nat)
    (buffer : σ → Buffer E) (taken : ο → Option E) (Resets : ι → Prop) : Prop :=
  ∀ size size' calls, (newBuffer dflt size : Buffer E).places ≤
      (newBuffer dflt size' : Buffer E).places → (∀ call ∈ calls, ¬ Resets call) →
    RelOk (fun x y => (x.2.filterMap taken ++ (buffer x.1).items).Sublist
      (y.2.filterMap taken ++ (buffer y.1).items))
      (trace step (new size) calls) (trace step (new size') calls)

/-- The statistics after some calls are those after the same calls without the ones that read, in a
system with a queue of another size. -/
def CountsAlike (step : σ → ι → Except ε (σ × ο)) (new : Nat → σ) (stats : σ → Option Probe.Stats)
    (acts : ι → Bool) : Prop :=
  ∀ size size' calls, RelOk (fun x y => stats x.1 = stats y.1)
    (trace step (new size) calls) (trace step (new size') (calls.filter acts))

variable {step : σ → ι → Except ε (σ × ο)} {new : Nat → σ} {dflt : Nat} {buffer : σ → Buffer E}
  {taken : ο → Option E} {Resets : ι → Prop}

theorem keepsMore_of_same (Same : σ → σ → Prop)
    (hnew : ∀ size size', Same (new size) (new size'))
    (hbuffer : ∀ size, buffer (new size) = newBuffer dflt size)
    (hstep : ∀ call, ¬ Resets call → ∀ a b, Same a b →
      RelOk (fun x y => Same x.1 y.1 ∧ Buffer.DidSame buffer taken a b x y) (step a call)
        (step b call)) :
    KeepsMore step new dflt buffer taken Resets := by
  intro size size' calls hplaces hcalls
  have hempty : (buffer (new size)).Within (buffer (new size')) [] [] := by
    rw [hbuffer, hbuffer]
    exact Buffer.within_empty rfl rfl hplaces
  have htrace := trace_within (fun call hmem => hstep call (hcalls call hmem)) (hnew size size')
    hempty
  exact htrace.mono fun x y h => h.2.sublist

theorem countsAlike_of_same {stats : σ → Option Probe.Stats} {acts : ι → Bool}
    (Same : σ → σ → Prop)
    (hnew : ∀ size size', Same (new size) (new size'))
    (hacts : ∀ call, acts call = true → ∀ a b, Same a b →
      RelOk (fun x y => Same x.1 y.1) (step a call) (step b call))
    (hreads : ∀ call, acts call = false → ∀ a b, Same a b →
      ∃ a' o, step a call = .ok (a', o) ∧ Same a' b)
    (hstats : ∀ a b, Same a b → stats a = stats b) : CountsAlike step new stats acts := by
  intro size size' calls
  have htrace := trace_filter acts hacts hreads (hnew size size') calls
  exact htrace.mono fun x y h => hstats _ _ h

/-- A system that cannot be told from one that keeps more does so itself. -/
theorem KeepsMore.of_bisim {τ : Type} {step' : τ → ι → Except ε (τ × ο)} {new' : Nat → τ}
    {buffer' : τ → Buffer E} {R : τ → σ → Prop} (h : KeepsMore step new dflt buffer taken Resets)
    (hstep : ∀ s t call, R s t →
      RelOk (fun x y => R x.1 y.1 ∧ x.2 = y.2) (step' s call) (step t call))
    (hnew : ∀ size, R (new' size) (new size)) (hbuffer : ∀ s t, R s t → buffer' s = buffer t) :
    KeepsMore step' new' dflt buffer' taken Resets := by
  intro size size' calls hplaces hcalls
  have hleft := trace_of_bisim hstep (hnew size) calls
  have hright := trace_of_bisim hstep (hnew size') calls
  refine ((hleft.trans (h size size' calls hplaces hcalls)).trans hright.symm).mono ?_
  rintro x y ⟨v, ⟨u, ⟨hx, houts⟩, hsub⟩, hy, houts'⟩
  rw [houts, houts', hbuffer _ _ hx, hbuffer _ _ hy]
  exact hsub

theorem CountsAlike.of_bisim {τ : Type} {step' : τ → ι → Except ε (τ × ο)} {new' : Nat → τ}
    {stats : σ → Option Probe.Stats} {stats' : τ → Option Probe.Stats} {acts : ι → Bool}
    {R : τ → σ → Prop} (h : CountsAlike step new stats acts)
    (hstep : ∀ s t call, R s t →
      RelOk (fun x y => R x.1 y.1 ∧ x.2 = y.2) (step' s call) (step t call))
    (hnew : ∀ size, R (new' size) (new size)) (hstats : ∀ s t, R s t → stats' s = stats t) :
    CountsAlike step' new' stats' acts := by
  intro size size' calls
  have hleft := trace_of_bisim hstep (hnew size) calls
  have hright := trace_of_bisim hstep (hnew size') (calls.filter acts)
  refine ((hleft.trans (h size size' calls)).trans hright.symm).mono ?_
  rintro x y ⟨v, ⟨u, ⟨hx, _⟩, hsame⟩, hy, _⟩
  rw [hstats _ _ hx, hstats _ _ hy]
  exact hsame

end Systems

/-- The buffer behind a pointer that callers hold. -/
def bufferOf {R E : Type} (ctx : Option (QueueCtx R E)) : Buffer E :=
  ctx.elim ⟨0, []⟩ QueueCtx.buffer

theorem QueueCtx.pops {R E : Type} (c : QueueCtx R E) (e : E) :
    c.buffer.Pops (c.pop e).2.1.buffer (if (c.pop e).1 = 1 then some (c.pop e).2.2 else none) := by
  have hpops := c.buffer.pops_pop e
  rw [← buffer_pop] at hpops
  exact hpops

/-! ## The parsers -/

namespace Parser

variable {R E C : Type} {P : Parser R E C}

def Result.taken : Result E → Option E
  | .event r (some e) => if r = 1 then some e else none
  | _ => none

/-- The step lemma: every call but a reset does the same to the queues of any two contexts. -/
theorem Lawful.did_same (hP : P.Lawful) (a b : QueueCtx R E) {call : Call E}
    (hcall : call ≠ .reset) :
    RelOk (fun x y => ((∃ a', x.1 = some a') ∧ ∃ b', y.1 = some b') ∧
      Buffer.DidSame bufferOf Result.taken (some a) (some b) x y) (P.step (some a) call)
      (P.step (some b) call) := by
  have hnone : Buffer.DidSame bufferOf Result.taken (some a) (some b) (some a, .code (-1))
      (some b, .code (-1)) := .inl ⟨[], ⟨rfl, rfl⟩, rfl, rfl⟩
  cases call with
  | feedInput data =>
      cases data with
      | none =>
          have hnull : ∀ c, P.feedInput (some c) none = .ok (-1, some c) :=
            fun c => hP.null (some c) none (.inr rfl)
          rw [step, step, hnull, hnull]
          exact .ok ⟨⟨⟨a, rfl⟩, b, rfl⟩, hnone⟩
      | some D =>
          -- What a buffer makes, its events or a trap, does not depend on the context.
          rcases hP.feed_cases D with ⟨es, hfed⟩ | ⟨e, hfed⟩
          · rw [step, step, hfed, hfed]
            exact .ok ⟨⟨⟨_, rfl⟩, _, rfl⟩, .inl ⟨es, ⟨a.buffer_pushAll es, rfl⟩,
              b.buffer_pushAll es, rfl⟩⟩
          · rw [step, step, hfed, hfed]
            exact .error e
  | nextEvent event =>
      cases event with
      | none => exact .ok ⟨⟨⟨a, rfl⟩, b, rfl⟩, .inl ⟨[], ⟨rfl, rfl⟩, rfl, rfl⟩⟩
      | some e => exact .ok ⟨⟨⟨_, rfl⟩, _, rfl⟩, .inr ⟨a.pops e, b.pops e⟩⟩
  | reset => exact absurd rfl hcall

theorem Lawful.keepsMore (hP : P.Lawful) {dflt : Nat} {new : Nat → QueueCtx R E}
    (hnew : ∀ size, (new size).buffer = newBuffer dflt size) :
    KeepsMore P.step (fun size => some (new size)) dflt bufferOf Result.taken (· = .reset) := by
  refine keepsMore_of_same (fun a b => (∃ a', a = some a') ∧ ∃ b', b = some b')
    (fun size size' => ⟨⟨_, rfl⟩, _, rfl⟩) hnew ?_
  rintro call hcall _ _ ⟨⟨a, rfl⟩, b, rfl⟩
  exact hP.did_same a b hcall

end Parser

/-! ## The probe modules -/

namespace Probe

variable {X : Type} {m : Module X}

def Result.taken : Result → Option Event
  | .event r (some e) => if r = 1 then some e else none
  | _ => none

/-- The call may change what a context counts. -/
def Call.acts : Call → Bool
  | .nextEvent _ | .getStats _ => false
  | _ => true

theorem taken_of_plain {c : Ctx X} {call : Call} (hplain : call.Plain)
    {x : Option (Ctx X) × Result} (h : m.step (some c) call = .ok x) : x.2.taken = none := by
  have hfeed : ∀ d ts, m.feedInputWithTs (some c) d ts >>= (fun y => .ok (y.2, Result.code y.1)) =
      .ok x → x.2.taken = none := by
    intro d ts hfed
    cases hbody : m.feedInputWithTs (some c) d ts with
    | ok y =>
        rw [hbody] at hfed
        cases hfed
        rfl
    | error e =>
        rw [hbody] at hfed
        cases hfed
  cases call with
  | feedInput d => exact hfeed d 0 h
  | feedInputWithTs d ts => exact hfeed d ts h
  | process ts => cases h; rfl
  | nextEvent e =>
      cases e with
      | none => cases h; rfl
      | some e => exact absurd rfl (hplain.1 e)
  | getStats s => cases h; rfl
  | reset => exact absurd rfl hplain.2

/-- Among the contexts of the module, for either role, those with larger queues keep more. -/
def Module.QueuesKeepMore (m : Module X) : Prop :=
  ∀ role, KeepsMore m.step (fun size => some (m.createWithConfig role (some ⟨size⟩))) 8
    (fun p => bufferOf (p.map Ctx.toQueueCtx)) Result.taken (· = .reset)

/-- Its statistics are those of packets and times alone. -/
def Module.QueuesDoNotCount (m : Module X) : Prop :=
  ∀ role, CountsAlike m.step (fun size => some (m.createWithConfig role (some ⟨size⟩)))
    (Option.map fun c => c.stats (m.lossPct c)) Call.acts

namespace Coupling

variable (k : Coupling m)

/-- The contexts are alike, whatever is in their queues. -/
def AlikePtr (p q : Option (Ctx X)) : Prop :=
  ∃ a b, p = some a ∧ q = some b ∧ Alike k.P a b

theorem alike_create (role : Role) (config config' : Option Config) :
    k.AlikePtr (some (m.createWithConfig role config)) (some (m.createWithConfig role config')) :=
  ⟨_, _, rfl, rfl, rfl, rfl, rfl, rfl, rfl, rfl, rfl, rfl, rfl, k.refl _ _ _⟩

/-- Taking an event leaves alike contexts alike, each on its own. -/
theorem alike_pop {a b : Ctx X} (h : Alike k.P a b) (e : Event) :
    Alike k.P { a with toQueueCtx := (a.pop e).2.1 } b :=
  { h with
    role := (a.toQueueCtx.role_pop e).trans h.role
    rest := by
      have hrole : (a.pop e).2.1.role = a.role := a.toQueueCtx.role_pop e
      simpa only [hrole] using h.rest }

variable {k}

/-- The step lemma: every call but a reset does the same to the queues of alike contexts. -/
theorem did_same {call : Call} (hcall : call ≠ .reset) (p q : Option (Ctx X))
    (h : k.AlikePtr p q) :
    RelOk (fun x y => k.AlikePtr x.1 y.1 ∧
      Buffer.DidSame (fun p => bufferOf (p.map Ctx.toQueueCtx)) Result.taken p q x y)
      (m.step p call) (m.step q call) := by
  rcases h with ⟨a, b, rfl, rfl, h⟩
  rcases call.plain_or with hplain | ⟨e, rfl⟩ | rfl
  · -- Alike contexts make the same events, each of which is pushed on both queues.
    refine (coupled_step h hplain).attach.mono ?_
    rintro ⟨p, r⟩ ⟨q, r'⟩ ⟨⟨a', b', rfl, rfl, _, ⟨es, _, ha, hb⟩, halike⟩, hp, hq⟩
    refine ⟨⟨a', b', rfl, rfl, halike⟩, .inl ⟨es, ⟨?_, taken_of_plain hplain hp⟩, ?_,
      taken_of_plain hplain hq⟩⟩
    · show a'.toQueueCtx.buffer = _
      rw [ha]
      exact a.toQueueCtx.buffer_pushAll es
    · show b'.toQueueCtx.buffer = _
      rw [hb]
      exact b.toQueueCtx.buffer_pushAll es
  · -- The events that are taken may differ, but not what the contexts count.
    have halike := k.alike_pop h e
    have hboth : Alike k.P { a with toQueueCtx := (a.pop e).2.1 }
        { b with toQueueCtx := (b.pop e).2.1 } :=
      { halike with role := halike.role.trans (b.toQueueCtx.role_pop e).symm }
    exact .ok ⟨⟨_, _, rfl, rfl, hboth⟩, .inr ⟨a.toQueueCtx.pops e, b.toQueueCtx.pops e⟩⟩
  · exact absurd rfl hcall

theorem keepsMore (k : Coupling m) : m.QueuesKeepMore := fun role =>
  keepsMore_of_same k.AlikePtr (fun _ _ => k.alike_create role _ _)
    (fun size => QueueCtx.buffer_init _ (by decide) _ _ size) fun _ hcall _ _ h =>
      did_same hcall _ _ h

theorem alike_acts {call : Call} (hcall : call.acts = true) (p q : Option (Ctx X))
    (h : k.AlikePtr p q) :
    RelOk (fun x y => k.AlikePtr x.1 y.1) (m.step p call) (m.step q call) := by
  by_cases hreset : call = .reset
  · subst hreset
    rcases h with ⟨a, b, rfl, rfl, h⟩
    exact .ok ⟨_, _, rfl, rfl, h.role, rfl, rfl, rfl, rfl, rfl, rfl, rfl, rfl, k.clear h.rest⟩
  · exact (did_same hreset p q h).mono fun _ _ hxy => hxy.1

theorem alike_reads {call : Call} (hcall : call.acts = false) (p q : Option (Ctx X))
    (h : k.AlikePtr p q) : ∃ p' r, m.step p call = .ok (p', r) ∧ k.AlikePtr p' q := by
  rcases h with ⟨a, b, rfl, rfl, h⟩
  cases call with
  | nextEvent e =>
      cases e with
      | none => exact ⟨_, _, rfl, a, b, rfl, rfl, h⟩
      | some e => exact ⟨_, _, rfl, _, b, rfl, rfl, k.alike_pop h e⟩
  | getStats s => exact ⟨_, _, rfl, a, b, rfl, rfl, h⟩
  | _ => cases hcall

theorem countsAlike (k : Coupling m) : m.QueuesDoNotCount := by
  intro role
  refine countsAlike_of_same k.AlikePtr (fun _ _ => k.alike_create role _ _)
    (fun _ hcall _ _ h => alike_acts hcall _ _ h) (fun _ hcall _ _ h => alike_reads hcall _ _ h) ?_
  rintro p q ⟨a, b, rfl, rfl, h⟩
  rw [Option.map_some, Option.map_some, Ctx.stats, Ctx.stats, h.replies, h.timeouts, h.dups,
    h.sumLat, h.maxLat, h.minLat, h.countLat, k.lossPct h]

end Coupling
end Probe

/-! ## The bandwidth module and the port probe module -/

namespace Bwdiag

open Probe (Role Config Event Call Result)

/-- Watches that remember the same packets. -/
def SamePackets (w w' : Watch) : Prop :=
  w.packets = w'.packets

theorem Watch.did_same_feed {p : Platform} {w w' : Watch} (h : SamePackets w w')
    (d : Option (List UInt8)) (ts : UInt64) :
    RelOk (fun x y => SamePackets x.1 y.1 ∧
      Buffer.DidSame Watch.pending Result.taken w w' x y) (w.feed p d ts) (w'.feed p d ts) := by
  have hnone : ∀ r, Buffer.DidSame Watch.pending Result.taken w w' (w, .code r) (w', .code r) :=
    fun r => .inl ⟨[], ⟨rfl, rfl⟩, rfl, rfl⟩
  cases d with
  | none => exact .ok ⟨h, hnone (-1)⟩
  | some d =>
      rw [Watch.feed, Watch.feed]
      by_cases hempty : d = []
      · rw [if_pos hempty, if_pos hempty]
        exact .ok ⟨h, hnone (-1)⟩
      rw [if_neg hempty, if_neg hempty]
      by_cases hts : ts = 0
      · rw [if_pos hts, if_pos hts]
        exact .ok ⟨h, hnone 0⟩
      rw [if_neg hts, if_neg hts, Watch.take, Watch.take, ← h]
      cases hpackets : w.packets with
      | nil => exact .ok ⟨rfl, .inl ⟨[], ⟨rfl, rfl⟩, rfl, rfl⟩⟩
      | cons before rest =>
          -- The sample has the bytes of the packets, which both remember.
          have htotal : w.total = w'.total := by
            rw [Watch.total, Watch.total, h]
          dsimp only
          split_ifs with helapsed
          · exact .error _
          · rw [htotal]
            exact .ok ⟨rfl, .inl ⟨[_], ⟨rfl, rfl⟩, rfl, rfl⟩⟩

theorem Watch.did_same {p : Platform} {call : Call} (hcall : call ≠ .reset) (w w' : Watch)
    (h : SamePackets w w') :
    RelOk (fun x y => SamePackets x.1 y.1 ∧
      Buffer.DidSame Watch.pending Result.taken w w' x y) (w.step p call) (w'.step p call) := by
  have hnone : ∀ r : Result, r.taken = none →
      Buffer.DidSame Watch.pending Result.taken w w' (w, r) (w', r) :=
    fun r hr => .inl ⟨[], ⟨rfl, hr⟩, rfl, hr⟩
  cases call with
  | feedInput d => exact did_same_feed h d 0
  | feedInputWithTs d ts => exact did_same_feed h d ts
  | process ts => exact .ok ⟨h, hnone _ rfl⟩
  | nextEvent e =>
      cases e with
      | none => exact .ok ⟨h, hnone _ rfl⟩
      | some e => exact .ok ⟨h, .inr ⟨w.pending.pops_pop e, w'.pending.pops_pop e⟩⟩
  | getStats s => cases s <;> exact .ok ⟨h, .inl ⟨[], ⟨rfl, rfl⟩, rfl, rfl⟩⟩
  | reset => exact absurd rfl hcall

theorem Watch.same_acts {p : Platform} {call : Call} (_ : call.acts = true) (w w' : Watch)
    (h : SamePackets w w') :
    RelOk (fun x y => SamePackets x.1 y.1) (w.step p call) (w'.step p call) := by
  by_cases hreset : call = .reset
  · subst hreset
    exact .ok rfl
  · exact (did_same hreset w w' h).mono fun _ _ hxy => hxy.1

theorem Watch.same_reads {p : Platform} {call : Call} (hcall : call.acts = false) (w w' : Watch)
    (h : SamePackets w w') : ∃ w₁ r, w.step p call = .ok (w₁, r) ∧ SamePackets w₁ w' := by
  cases call with
  | nextEvent e => cases e <;> exact ⟨_, _, rfl, h⟩
  | getStats s => cases s <;> exact ⟨_, _, rfl, h⟩
  | _ => cases hcall

theorem together_new (role : Role) (size : Nat) :
    Together (some (createWithConfig role (some ⟨size⟩))) (.new size) :=
  ⟨_, rfl, shows_new role _ size⟩

theorem keepsMore (p : Platform) (role : Role) :
    KeepsMore (step p) (fun size => some (createWithConfig role (some ⟨size⟩))) 8
      (fun ctx => bufferOf (ctx.map Ctx.toQueueCtx)) Result.taken (· = .reset) := by
  have hwatch : KeepsMore (Watch.step p) Watch.new 8 Watch.pending Result.taken (· = .reset) :=
    keepsMore_of_same SamePackets (fun _ _ => rfl) (fun _ => rfl)
      fun _ hcall w w' h => Watch.did_same hcall w w' h
  refine hwatch.of_bisim (step_together p) (together_new role) ?_
  rintro _ w ⟨c, rfl, h⟩
  exact h.pending

theorem countsAlike (p : Platform) (role : Role) :
    CountsAlike (step p) (fun size => some (createWithConfig role (some ⟨size⟩)))
      (Option.map Ctx.stats) Call.acts := by
  have hwatch : CountsAlike (Watch.step p) Watch.new (fun w => some w.stats) Call.acts := by
    refine countsAlike_of_same SamePackets (fun _ _ => rfl)
      (fun _ hcall w w' h => Watch.same_acts hcall w w' h)
      (fun _ hcall w w' h => Watch.same_reads hcall w w' h) fun w w' h => ?_
    have hpackets : w.packets = w'.packets := h
    rw [Watch.stats, Watch.stats, Watch.samples, Watch.samples, hpackets]
  refine hwatch.of_bisim (step_together p) (together_new role) ?_
  rintro _ w ⟨c, rfl, h⟩
  exact congrArg some h.stats

end Bwdiag

namespace Nmapdiag

open Probe (Role Config)

def Result.taken : Result → Option Event
  | .event r (some e) => if r = 1 then some e else none
  | _ => none

/-- The call may change what a context counts. -/
def Call.acts : Call → Bool
  | .nextEvent _ | .getStats _ => false
  | _ => true

/-- Surveys of the same role that remember the same answers. -/
def SameAnswers (v v' : Survey) : Prop :=
  v.role = v'.role ∧ v.answers = v'.answers

theorem Survey.did_same_feed {v v' : Survey} (h : SameAnswers v v') (d : Option (List UInt8))
    (ts : UInt64) :
    RelOk (fun x y => SameAnswers x.1 y.1 ∧
      Buffer.DidSame Survey.pending Result.taken v v' x y) (v.feed d ts) (v'.feed d ts) := by
  have hnone : ∀ r, Buffer.DidSame Survey.pending Result.taken v v' (v, .code r) (v', .code r) :=
    fun r => .inl ⟨[], ⟨rfl, rfl⟩, rfl, rfl⟩
  cases d with
  | none => exact .ok ⟨h, hnone (-1)⟩
  | some d =>
      rw [Survey.feed, Survey.feed, ← h.1]
      by_cases hshort : d.length < 20
      · rw [if_pos hshort, if_pos hshort]
        exact .ok ⟨h, hnone (-1)⟩
      rw [if_neg hshort, if_neg hshort]
      cases answerOf v.role d ts with
      | error e => exact .error e
      | ok answer =>
          cases answer with
          | none => exact .ok ⟨h, hnone 0⟩
          | some answer =>
              exact .ok ⟨⟨h.1, congrArg (answer :: ·) h.2⟩,
                .inl ⟨[answer.event], ⟨rfl, rfl⟩, rfl, rfl⟩⟩

theorem Survey.did_same {call : Call} (hcall : call ≠ .reset) (v v' : Survey)
    (h : SameAnswers v v') :
    RelOk (fun x y => SameAnswers x.1 y.1 ∧
      Buffer.DidSame Survey.pending Result.taken v v' x y) (v.step call) (v'.step call) := by
  have hnone : ∀ r : Result, r.taken = none →
      Buffer.DidSame Survey.pending Result.taken v v' (v, r) (v', r) :=
    fun r hr => .inl ⟨[], ⟨rfl, hr⟩, rfl, hr⟩
  cases call with
  | feedInput d => exact did_same_feed h d 0
  | feedInputWithTs d ts => exact did_same_feed h d ts
  | process ts => exact .ok ⟨h, hnone _ rfl⟩
  | nextEvent e =>
      cases e with
      | none => exact .ok ⟨h, hnone _ rfl⟩
      | some e => exact .ok ⟨h, .inr ⟨v.pending.pops_pop e, v'.pending.pops_pop e⟩⟩
  | getStats s => cases s <;> exact .ok ⟨h, .inl ⟨[], ⟨rfl, rfl⟩, rfl, rfl⟩⟩
  | reset => exact absurd rfl hcall

theorem Survey.same_acts {call : Call} (_ : call.acts = true) (v v' : Survey)
    (h : SameAnswers v v') :
    RelOk (fun x y => SameAnswers x.1 y.1) (v.step call) (v'.step call) := by
  by_cases hreset : call = .reset
  · subst hreset
    exact .ok ⟨h.1, rfl⟩
  · exact (did_same hreset v v' h).mono fun _ _ hxy => hxy.1

theorem Survey.same_reads {call : Call} (hcall : call.acts = false) (v v' : Survey)
    (h : SameAnswers v v') : ∃ v₁ r, v.step call = .ok (v₁, r) ∧ SameAnswers v₁ v' := by
  cases call with
  | nextEvent e => cases e <;> exact ⟨_, _, rfl, h⟩
  | getStats s => cases s <;> exact ⟨_, _, rfl, h⟩
  | _ => cases hcall

theorem together_new (role : Role) (size : Nat) :
    Together (some (createWithConfig role (some ⟨size⟩))) (.new role size) :=
  ⟨_, rfl, shows_new role _ 0 size⟩

theorem keepsMore (role : Role) :
    KeepsMore step (fun size => some (createWithConfig role (some ⟨size⟩))) 8
      (fun ctx => bufferOf (ctx.map Ctx.toQueueCtx)) Result.taken (· = .reset) := by
  have hsurvey : KeepsMore Survey.step (Survey.new role) 8 Survey.pending Result.taken
      (· = .reset) :=
    keepsMore_of_same SameAnswers (fun _ _ => ⟨rfl, rfl⟩) (fun _ => rfl)
      fun _ hcall v v' h => Survey.did_same hcall v v' h
  refine hsurvey.of_bisim step_together (together_new role) ?_
  rintro _ v ⟨c, rfl, h⟩
  exact h.pending

theorem countsAlike (role : Role) :
    CountsAlike step (fun size => some (createWithConfig role (some ⟨size⟩)))
      (Option.map Ctx.stats) Call.acts := by
  have hsurvey : CountsAlike Survey.step (Survey.new role) (fun v => some v.stats) Call.acts := by
    refine countsAlike_of_same SameAnswers (fun _ _ => ⟨rfl, rfl⟩)
      (fun _ hcall v v' h => Survey.same_acts hcall v v' h)
      (fun _ hcall v v' h => Survey.same_reads hcall v v' h) fun v v' h => ?_
    rw [Survey.stats, Survey.stats, Survey.latencies, Survey.latencies, h.2]
  refine hsurvey.of_bisim step_together (together_new role) ?_
  rintro _ v ⟨c, rfl, h⟩
  exact congrArg some h.stats

end Nmapdiag

/-! ## All modules -/

open Probe (Role)

/-- In all nine modules, whatever calls but resets are made on two new contexts: if one has a queue
of at least the size of the other, each event that is got from the other, or is still in it, is got
from the one or is still in it, in the same order. -/
theorem larger_queue_keeps :
    (∀ p role, KeepsMore (Nfct.parser p).step
      (fun size => some (Nfct.createWithConfig role (some ⟨size⟩))) 16 bufferOf
      Parser.Result.taken (· = .reset)) ∧
    (∀ p role, KeepsMore (Nl80211.parser p).step
      (fun size => some (Nl80211.parseCreateWithConfig role (some ⟨size⟩))) 16 bufferOf
      Parser.Result.taken (· = .reset)) ∧
    Ping.ping.QueuesKeepMore ∧ Arping.arping.QueuesKeepMore ∧
    Traceroute.traceroute.QueuesKeepMore ∧ Dnsdiag.dnsdiag.QueuesKeepMore ∧
    Arprecon.arprecon.QueuesKeepMore ∧
    (∀ p role, KeepsMore (Bwdiag.step p)
      (fun size => some (Bwdiag.createWithConfig role (some ⟨size⟩))) 8
      (fun ctx => bufferOf (ctx.map Bwdiag.Ctx.toQueueCtx)) Probe.Result.taken (· = .reset)) ∧
    ∀ role, KeepsMore Nmapdiag.step
      (fun size => some (Nmapdiag.createWithConfig role (some ⟨size⟩))) 8
      (fun ctx => bufferOf (ctx.map Nmapdiag.Ctx.toQueueCtx)) Nmapdiag.Result.taken
      (· = .reset) :=
  ⟨fun p _ => (Nfct.parser_lawful p).keepsMore fun _ =>
      QueueCtx.buffer_init dfltQsz_pos (by decide) _ _ _,
    fun p _ => (Nl80211.parser_lawful p).keepsMore fun _ =>
      QueueCtx.buffer_init dfltQsz_pos (by decide) _ _ _,
    Ping.coupling.keepsMore, Arping.coupling.keepsMore, Traceroute.coupling.keepsMore,
    Dnsdiag.coupling.keepsMore, Arprecon.coupling.keepsMore, Bwdiag.keepsMore,
    Nmapdiag.keepsMore⟩

/-- In all modules that count, the statistics after any calls are those that a new context with a
queue of any other size has after the same calls without those that read events and statistics. -/
theorem stats_ignore_queue :
    Ping.ping.QueuesDoNotCount ∧ Arping.arping.QueuesDoNotCount ∧
    Traceroute.traceroute.QueuesDoNotCount ∧ Dnsdiag.dnsdiag.QueuesDoNotCount ∧
    Arprecon.arprecon.QueuesDoNotCount ∧
    (∀ p role, CountsAlike (Bwdiag.step p)
      (fun size => some (Bwdiag.createWithConfig role (some ⟨size⟩)))
      (Option.map Bwdiag.Ctx.stats) Probe.Call.acts) ∧
    ∀ role, CountsAlike Nmapdiag.step
      (fun size => some (Nmapdiag.createWithConfig role (some ⟨size⟩)))
      (Option.map Nmapdiag.Ctx.stats) Nmapdiag.Call.acts :=
  ⟨Ping.coupling.countsAlike, Arping.coupling.countsAlike, Traceroute.coupling.countsAlike,
    Dnsdiag.coupling.countsAlike, Arprecon.coupling.countsAlike, Bwdiag.countsAlike,
    Nmapdiag.countsAlike⟩

end Netdiag
