import Netdiag.Lib.Observe
import Netdiag.Probe.Module

/-!
# Coupling — two contexts that take the same calls

A call does the same to two contexts that differ only in what the call does not look at: it queues
the same events in both, and leaves them alike.  `Coupling` is this property of a module, with the
relation `P` that says for its contexts what no call looks at.  From it follows that a call only
ever queues events (`Coupling.pushes_step`), and that two alike contexts with the same events in
their queues look the same to every caller (`Coupling.SimilarPtr.observe_eq`).
-/

namespace Netdiag
namespace Probe

open Lib

variable {X : Type}

/-! ## Alike contexts -/

/-- What may differ in alike contexts: for a role and a probe that waits or not, the times of the
last probe and the modules' own fields. -/
abbrev Rest (X : Type) : Type := Role → Bool → UInt64 × X → UInt64 × X → Prop

/-- The contexts agree in role, probe state and counters, and are related in the rest. -/
structure Alike (P : Rest X) (a b : Ctx X) : Prop where
  role : a.role = b.role
  waiting : a.waiting = b.waiting
  replies : a.replies = b.replies
  timeouts : a.timeouts = b.timeouts
  dups : a.dups = b.dups
  sumLat : a.sumLat = b.sumLat
  maxLat : a.maxLat = b.maxLat
  minLat : a.minLat = b.minLat
  countLat : a.countLat = b.countLat
  rest : P a.role a.waiting (a.sendTs, a.own) (b.sendTs, b.own)

/-- A call has queued the same events in both contexts, at most `n` of them, and left them
alike. -/
def Coupled (P : Rest X) (n : Nat) (a b a' b' : Ctx X) : Prop :=
  (∃ es, es.length ≤ n ∧ a'.toQueueCtx = a.toQueueCtx.pushAll es ∧
    b'.toQueueCtx = b.toQueueCtx.pushAll es) ∧ Alike P a' b'

section Rules

variable {P : Rest X} {a b : Ctx X}

@[simp] theorem role_qpush (c : Ctx X) (e : Event) : (c.qpush e).role = c.role := rfl

theorem Alike.coupled (h : Alike P a b) (n : Nat) : Coupled P n a b a b :=
  ⟨⟨[], Nat.zero_le _, rfl, rfl⟩, h⟩

theorem Coupled.trans {n k : Nat} {a' b' a'' b'' : Ctx X} (h : Coupled P n a b a' b')
    (h' : Coupled P k a' b' a'' b'') : Coupled P (n + k) a b a'' b'' := by
  rcases h with ⟨⟨es, hlen, ha, hb⟩, _⟩
  rcases h' with ⟨⟨fs, hlen', ha', hb'⟩, halike⟩
  -- The events of the second part are queued behind those of the first.
  refine ⟨⟨es ++ fs, ?_, ?_, ?_⟩, halike⟩
  · rw [List.length_append]
    omega
  · rw [ha', ha, QueueCtx.pushAll_append]
  · rw [hb', hb, QueueCtx.pushAll_append]

/-- The rule for a reply. -/
theorem Alike.reply (h : Alike P a b) (ev : Event) {ts : UInt64} {oa ob : X}
    (hlat : a.latency ts = b.latency ts)
    (hrest : P a.role false (a.sendTs, oa) (b.sendTs, ob)) :
    Coupled P 1 a b { a.reply ev ts with own := oa } { b.reply ev ts with own := ob } := by
  refine ⟨⟨[{ ev with latencyMs := a.latency ts }], le_rfl, rfl, ?_⟩, ?_⟩
  · rw [hlat]
    rfl
  · simp only [Ctx.reply, Ctx.qpush, hlat]
    exact
      { role := h.role
        waiting := rfl
        replies := by rw [h.replies]
        timeouts := h.timeouts
        dups := h.dups
        sumLat := by rw [h.sumLat]
        maxLat := by rw [h.maxLat]
        minLat := by rw [h.minLat]
        countLat := by rw [h.countLat]
        rest := hrest }

/-- The rule for a probe that fails. -/
theorem Alike.timeout (h : Alike P a b) (ev : Event) {oa ob : X}
    (hrest : P a.role false (a.sendTs, oa) (b.sendTs, ob)) :
    Coupled P 1 a b { a.timeout ev with own := oa } { b.timeout ev with own := ob } := by
  refine ⟨⟨[ev], le_rfl, rfl, rfl⟩, ?_⟩
  exact
    { role := h.role
      waiting := rfl
      replies := h.replies
      timeouts := congrArg (· + 1) h.timeouts
      dups := h.dups
      sumLat := h.sumLat
      maxLat := h.maxLat
      minLat := h.minLat
      countLat := h.countLat
      rest := hrest }

/-- The rule for a request. -/
theorem Alike.request (h : Alike P a b) {ts : UInt64} {oa ob : X}
    (hrest : P a.role true ((a.stamp ts).sendTs, oa) ((b.stamp ts).sendTs, ob)) :
    Coupled P 0 a b { a.request ts with own := oa } { b.request ts with own := ob } :=
  ⟨⟨[], le_rfl, rfl, rfl⟩,
    { role := h.role
      waiting := rfl
      replies := h.replies
      timeouts := h.timeouts
      dups := h.dups
      sumLat := h.sumLat
      maxLat := h.maxLat
      minLat := h.minLat
      countLat := h.countLat
      rest := hrest }⟩

/-- The rule for an event that only adds to the duplicates. -/
theorem Alike.duplicate (h : Alike P a b) (ev : Event) :
    Coupled P 1 a b { a.qpush ev with dups := a.dups + 1 }
      { b.qpush ev with dups := b.dups + 1 } :=
  ⟨⟨[ev], le_rfl, rfl, rfl⟩, { h with dups := congrArg (· + 1) h.dups }⟩

theorem Alike.stamp (h : Alike P a b) {ts : UInt64}
    (hrest : P a.role a.waiting ((a.stamp ts).sendTs, a.own) ((b.stamp ts).sendTs, b.own)) :
    Coupled P 0 a b (a.stamp ts) (b.stamp ts) :=
  ⟨⟨[], le_rfl, rfl, rfl⟩, { h with rest := hrest }⟩

theorem Alike.withOwn (h : Alike P a b) {oa ob : X}
    (hrest : P a.role a.waiting (a.sendTs, oa) (b.sendTs, ob)) :
    Alike P { a with own := oa } { b with own := ob } :=
  { h with rest := hrest }

theorem Alike.lossPct (h : Alike P a b) : a.lossPct = b.lossPct := by
  rw [Ctx.lossPct, Ctx.lossPct, h.replies, h.timeouts]

theorem Coupled.mono {n k : Nat} {a' b' : Ctx X} (h : Coupled P n a b a' b') (hle : n ≤ k) :
    Coupled P k a b a' b' := by
  rcases h with ⟨⟨es, hlen, ha, hb⟩, halike⟩
  exact ⟨⟨es, hlen.trans hle, ha, hb⟩, halike⟩

end Rules

/-- A computation that starts from coupled contexts. -/
theorem Coupled.then {P : Rest X} {n k : Nat} {a b a' b' : Ctx X} (h : Coupled P n a b a' b')
    {x y : Except Fault (Ctx X)} (hxy : RelOk (Coupled P k a' b') x y) :
    RelOk (Coupled P (n + k) a b) x y :=
  hxy.mono fun _ _ h' => h.trans h'

/-! ## Timers -/

/-- The time of a last probe and one that no call can tell from it where a probe times out. -/
def SameTimer (s t : UInt64) : Prop :=
  ∀ ts, (s ≠ 0 ∧ ts > s + 1000) ↔ (t ≠ 0 ∧ ts > t + 1000)

theorem SameTimer.refl (s : UInt64) : SameTimer s s :=
  fun _ => Iff.rfl

/-- The last time of all is later than every other sum of a time and the delay. -/
theorem sum_lt_last {s : UInt64} (h : s ≠ 0xFFFFFFFFFFFFFC17) :
    s + 1000 < 0xFFFFFFFFFFFFFFFF := by
  have hle : s + 1000 ≤ 0xFFFFFFFFFFFFFFFF := by
    rw [UInt64.le_iff_toNat_le]
    exact Nat.le_of_lt_succ (s + 1000).toNat_lt
  apply UInt64.lt_of_le_of_ne hle
  intro hsum
  have hlast : (0xFFFFFFFFFFFFFC17 : UInt64) + 1000 = 0xFFFFFFFFFFFFFFFF := by decide
  exact h ((UInt64.add_left_inj 1000).1 (hsum.trans hlast.symm))

/-- A timer that never runs out: none was set, or the sum with the delay is the last time. -/
theorem sameTimer_zero_iff {s : UInt64} : SameTimer s 0 ↔ s = 0 ∨ s = 0xFFFFFFFFFFFFFC17 := by
  have hnever : ∀ ts : UInt64, ¬ ((0 : UInt64) ≠ 0 ∧ ts > 0 + 1000) := fun _ h => h.1 rfl
  constructor
  · intro h
    by_contra hset
    rw [not_or] at hset
    exact hnever 0xFFFFFFFFFFFFFFFF ((h _).1 ⟨hset.1, sum_lt_last hset.2⟩)
  · rintro (rfl | rfl) ts
    · exact Iff.rfl
    · have hle : ts ≤ 0xFFFFFFFFFFFFFFFF := by
        rw [UInt64.le_iff_toNat_le]
        exact Nat.le_of_lt_succ ts.toNat_lt
      refine ⟨fun h => ?_, fun h => absurd h (hnever ts)⟩
      exact absurd h.2 (UInt64.not_lt.2 hle)

/-- Timers that no call can tell apart are the same, or both never run out. -/
theorem sameTimer_iff {s t : UInt64} :
    SameTimer s t ↔ s = t ∨ SameTimer s 0 ∧ SameTimer t 0 := by
  constructor
  · intro h
    by_cases hs : SameTimer s 0
    · refine .inr ⟨hs, ?_⟩
      intro ts
      exact (h ts).symm.trans (hs ts)
    · -- A timer that runs out does so at the last time, and then so does the other.
      rw [sameTimer_zero_iff, not_or] at hs
      have ht := ((h 0xFFFFFFFFFFFFFFFF).1 ⟨hs.1, sum_lt_last hs.2⟩).1
      have hgt : ∀ ts, ts > s + 1000 ↔ ts > t + 1000 := by
        intro ts
        exact (and_iff_right hs.1).symm.trans ((h ts).trans (and_iff_right ht))
      have hsum : s + 1000 = t + 1000 := by
        apply UInt64.le_antisymm
        · apply UInt64.not_lt.1
          intro hlt
          exact UInt64.lt_irrefl _ ((hgt _).2 hlt)
        · apply UInt64.not_lt.1
          intro hlt
          exact UInt64.lt_irrefl _ ((hgt _).1 hlt)
      exact .inl ((UInt64.add_left_inj 1000).1 hsum)
  · intro h
    rcases h with rfl | ⟨hs, ht⟩
    · exact .refl s
    · intro ts
      exact (hs ts).trans (ht ts).symm

theorem Alike.expired_iff {P : Rest X} {a b : Ctx X} (h : Alike P a b)
    (htimer : a.waiting = true → SameTimer a.sendTs b.sendTs) (ts : UInt64) :
    a.Expired ts ↔ b.Expired ts := by
  rw [Ctx.Expired, Ctx.Expired, ← h.waiting]
  exact and_congr_right fun hwaiting => htimer hwaiting ts

/-- The rule for `*_process` of the modules with timers. -/
theorem Alike.expire {P : Rest X} {a b : Ctx X} (h : Alike P a b)
    (htimer : a.waiting = true → SameTimer a.sendTs b.sendTs) {ts : UInt64} {ev ev' : Event}
    {oa ob : X}
    (hsame : a.waiting = true → ev = ev' ∧ P a.role false (a.sendTs, oa) (b.sendTs, ob)) :
    Coupled P 1 a b (if a.Expired ts then { a.timeout ev with own := oa } else a)
      (if b.Expired ts then { b.timeout ev' with own := ob } else b) := by
  have hexpired := h.expired_iff htimer ts
  by_cases ha : a.Expired ts
  · rcases hsame ha.1 with ⟨rfl, hrest⟩
    rw [if_pos ha, if_pos (hexpired.1 ha)]
    exact h.timeout ev hrest
  · rw [if_neg ha, if_neg (hexpired.not.1 ha)]
    exact h.coupled 1

/-- The times of the last probe in modules that read them for latencies, which only requesters
measure, and for timeouts. -/
def SameClock (role : Role) (s t : UInt64) : Prop :=
  (role = .requester → s = t) ∧ SameTimer s t

theorem SameClock.refl (role : Role) (s : UInt64) : SameClock role s s :=
  ⟨fun _ => rfl, .refl s⟩

/-- A time that is given is the same afterwards. -/
theorem SameClock.stamp {role : Role} {s t : UInt64} (h : SameClock role s t) (ts : UInt64) :
    SameClock role (if ts ≠ 0 then ts else s) (if ts ≠ 0 then ts else t) := by
  by_cases hts : ts ≠ 0
  · rw [if_pos hts, if_pos hts]
    exact .refl role ts
  · rw [if_neg hts, if_neg hts]
    exact h

theorem SameClock.latency {a b : Ctx X} (h : SameClock a.role a.sendTs b.sendTs)
    (hrole : a.role = .requester) (ts : UInt64) : a.latency ts = b.latency ts := by
  rw [Ctx.latency, Ctx.latency, h.1 hrole]

/-- A latency that is measured from the time of the same packet, or not at all. -/
theorem latency_stamp (c : Ctx X) (ts : UInt64) :
    (c.stamp ts).latency ts = if ts ≠ 0 then 0 else 5 := by
  by_cases hts : ts ≠ 0
  · simp only [Ctx.latency, Ctx.stamp, if_pos hts, and_self]
    exact if_neg (UInt64.lt_irrefl ts)
  · simp only [Ctx.latency, Ctx.stamp, if_neg hts]
    exact if_neg fun h => hts h.2

/-! ## Coupled modules -/

structure Coupling (m : Module X) where
  P : Rest X
  /-- How many events a call queues at most. -/
  bound : Nat
  refl : ∀ role waiting x, P role waiting x x
  body : ∀ {a b : Ctx X} {d : List UInt8} (_ : m.minLen ≤ d.length) (ts : UInt64), Alike P a b →
    RelOk (Coupled P bound a b) (m.body a d ts) (m.body b d ts)
  tick : ∀ {a b : Ctx X} (ts : UInt64), Alike P a b →
    Coupled P bound a b (m.tick a ts) (m.tick b ts)
  clear : ∀ {role : Role} {waiting : Bool} {s t : UInt64} {o p : X},
    P role waiting (s, o) (t, p) → P role false (s, m.clear o) (t, m.clear p)
  lossPct : ∀ {a b : Ctx X}, Alike P a b → m.lossPct a = m.lossPct b

namespace Coupling

variable {m : Module X} (k : Coupling m)

theorem alike_refl (c : Ctx X) : Alike k.P c c :=
  ⟨rfl, rfl, rfl, rfl, rfl, rfl, rfl, rfl, rfl, k.refl _ _ _⟩

/-- The results of a call agree, and what the call has done to both contexts is coupled. -/
def CoupledResult (a b : Ctx X) (x y : Option (Ctx X) × Result) : Prop :=
  ∃ a' b', x.1 = some a' ∧ y.1 = some b' ∧ x.2 = y.2 ∧ Coupled k.P k.bound a b a' b'

variable {k}

theorem coupled_feed {a b : Ctx X} (h : Alike k.P a b) {call : Call} {d : List UInt8} {ts : UInt64}
    (hcall : call.Feeds d ts) :
    RelOk (k.CoupledResult a b) (m.step (some a) call) (m.step (some b) call) := by
  rw [Module.step_feed hcall, Module.step_feed hcall]
  by_cases hlen : d.length < m.minLen
  · rw [Module.feedInputWithTs_of_short hlen, Module.feedInputWithTs_of_short hlen]
    exact .ok ⟨a, b, rfl, rfl, rfl, h.coupled _⟩
  · have hle := Nat.le_of_not_lt hlen
    rw [Module.feedInputWithTs_of_le hle, Module.feedInputWithTs_of_le hle]
    have hbody := k.body hle ts h
    -- The module's own part returns for both contexts, or fails for both.
    generalize m.body a d ts = x at hbody ⊢
    generalize m.body b d ts = y at hbody ⊢
    cases hbody with
    | ok hcoupled => exact .ok ⟨_, _, rfl, rfl, rfl, hcoupled⟩
    | error e => exact .error e

/-- The step lemma for calls that do not touch what is queued already. -/
theorem coupled_step {a b : Ctx X} (h : Alike k.P a b) {call : Call} (hplain : call.Plain) :
    RelOk (k.CoupledResult a b) (m.step (some a) call) (m.step (some b) call) := by
  cases call with
  | feedInput d =>
      cases d with
      | none => exact .ok ⟨a, b, rfl, rfl, rfl, h.coupled _⟩
      | some d => exact coupled_feed h (.inr ⟨rfl, rfl⟩)
  | feedInputWithTs d ts =>
      cases d with
      | none => exact .ok ⟨a, b, rfl, rfl, rfl, h.coupled _⟩
      | some d => exact coupled_feed h (.inl rfl)
  | process ts => exact .ok ⟨_, _, rfl, rfl, rfl, k.tick ts h⟩
  | nextEvent e =>
      cases e with
      | none => exact .ok ⟨a, b, rfl, rfl, rfl, h.coupled _⟩
      | some e => exact absurd rfl (hplain.1 e)
  | getStats s =>
      -- The statistics are made of the counters, which are the same.
      refine .ok ⟨a, b, rfl, rfl, ?_, h.coupled _⟩
      cases s with
      | none => rfl
      | some s =>
          dsimp only [Module.getStats, Ctx.stats]
          rw [h.replies, h.timeouts, h.dups, h.sumLat, h.maxLat, h.minLat, h.countLat,
            k.lossPct h]
  | reset => exact absurd rfl hplain.2

/-- Such a call only ever queues events. -/
theorem pushes_step {c c' : Ctx X} {call : Call} {r : Result} (hplain : call.Plain)
    (h : m.step (some c) call = .ok (some c', r)) :
    ∃ es, es.length ≤ k.bound ∧ c'.toQueueCtx = c.toQueueCtx.pushAll es := by
  rcases (coupled_step (k.alike_refl c) hplain).of_ok h with ⟨_, _, a', _, ha, _, _, hcoupled⟩
  rcases hcoupled.1 with ⟨es, hlen, hpush, _⟩
  obtain rfl : c' = a' := Option.some.inj ha
  exact ⟨es, hlen, hpush⟩

variable (k)

/-- Alike contexts with the same events in queues of the same size. -/
structure Similar (a b : Ctx X) : Prop where
  qsz : a.qsz = b.qsz
  queued : a.queued = b.queued
  alike : Alike k.P a b

/-- The same for the pointers that callers hold. -/
inductive SimilarPtr : Option (Ctx X) → Option (Ctx X) → Prop
  | null : SimilarPtr none none
  | ctx {a b : Ctx X} : k.Similar a b → SimilarPtr (some a) (some b)

variable {k}

theorem Similar.of_coupled {n : Nat} {a b a' b' : Ctx X} (h : k.Similar a b)
    (hcoupled : Coupled k.P n a b a' b') : k.Similar a' b' := by
  rcases hcoupled with ⟨⟨es, _, ha, hb⟩, halike⟩
  refine ⟨?_, ?_, halike⟩
  · rw [ha, hb, QueueCtx.qsz_pushAll, QueueCtx.qsz_pushAll, h.qsz]
  · rw [ha, hb, QueueCtx.queued_pushAll, QueueCtx.queued_pushAll, QueueCtx.free, QueueCtx.free,
      h.qsz, h.queued]

/-- Taking an event from similar contexts. -/
theorem Similar.nextEvent {a b : Ctx X} (h : k.Similar a b) (e : Event) :
    RelOk (fun x y => k.SimilarPtr x.1 y.1 ∧ x.2 = y.2) (m.step (some a) (.nextEvent (some e)))
      (m.step (some b) (.nextEvent (some e))) := by
  cases hq : a.queued with
  | nil =>
      have hq' : b.queued = [] := h.queued ▸ hq
      rw [Module.step, Module.step, Ctx.nextEvent_of_pop (QueueCtx.pop_of_nil hq e),
        Ctx.nextEvent_of_pop (QueueCtx.pop_of_nil hq' e)]
      exact .ok ⟨.ctx h, rfl⟩
  | cons front rest =>
      have hq' : b.queued = front :: rest := h.queued ▸ hq
      rcases QueueCtx.pop_of_cons hq e with ⟨qa, hpop, hrole, hrest, hqsz⟩
      rcases QueueCtx.pop_of_cons hq' e with ⟨qb, hpop', hrole', hrest', hqsz'⟩
      -- The same event is returned, and the same events are left.
      rw [Module.step, Module.step, Ctx.nextEvent_of_pop hpop, Ctx.nextEvent_of_pop hpop']
      refine .ok ⟨.ctx ⟨?_, ?_, ?_⟩, rfl⟩
      · exact hqsz.trans (h.qsz.trans hqsz'.symm)
      · exact hrest.trans hrest'.symm
      · exact { h.alike with
          role := hrole.trans (h.alike.role.trans hrole'.symm)
          rest := by simpa only [hrole] using h.alike.rest }

theorem Similar.reset {a b : Ctx X} (h : k.Similar a b) :
    k.SimilarPtr (m.reset (some a)) (m.reset (some b)) := by
  have hqsz : a.qsz = b.qsz := h.qsz
  refine .ctx ⟨?_, ?_, ?_⟩
  · exact congrArg (fun size => (QueueCtx.init 8 dfltProbeQsz_pos a.role a.ring.1 size).qsz) hqsz
  · exact (QueueCtx.queued_init _ _ _ _ _).trans (QueueCtx.queued_init _ _ _ _ _).symm
  · exact ⟨h.alike.role, rfl, rfl, rfl, rfl, rfl, rfl, rfl, rfl, k.clear h.alike.rest⟩

theorem Similar.plain {a b : Ctx X} (h : k.Similar a b) {call : Call} (hplain : call.Plain) :
    RelOk (fun x y => k.SimilarPtr x.1 y.1 ∧ x.2 = y.2) (m.step (some a) call)
      (m.step (some b) call) := by
  refine (coupled_step h.alike hplain).mono ?_
  rintro ⟨p, r⟩ ⟨q, r'⟩ ⟨a', b', hp, hq, hr, hcoupled⟩
  dsimp only at hp hq
  rw [hp, hq]
  exact ⟨.ctx (h.of_coupled hcoupled), hr⟩

/-- The step lemma: a call gives the same result on similar contexts, and leaves them similar. -/
theorem SimilarPtr.step {p q : Option (Ctx X)} (h : k.SimilarPtr p q) (call : Call) :
    RelOk (fun x y => k.SimilarPtr x.1 y.1 ∧ x.2 = y.2) (m.step p call) (m.step q call) := by
  cases h with
  | null => cases call <;> exact .ok ⟨.null, rfl⟩
  | @ctx a b hsim =>
      rcases call.plain_or with hplain | ⟨e, rfl⟩ | rfl
      · exact hsim.plain hplain
      · exact hsim.nextEvent e
      · exact .ok ⟨hsim.reset, rfl⟩

/-- After a reset, a context is similar to a new one if what is left of it is never read. -/
theorem similar_reset {c : Ctx X}
    (h : k.P c.role false (c.sendTs, m.clear c.own) (0, m.clear m.calloc)) :
    k.SimilarPtr (m.reset (some c)) (some (m.createWithConfig c.role (some ⟨c.qsz⟩))) := by
  refine .ctx ⟨rfl, ?_, ?_⟩
  · exact (QueueCtx.queued_init _ _ _ _ _).trans (QueueCtx.queued_init _ _ _ _ _).symm
  · exact ⟨rfl, rfl, rfl, rfl, rfl, rfl, rfl, rfl, rfl, h⟩

/-- Similar contexts look the same to every caller. -/
theorem SimilarPtr.observe_eq {p q : Option (Ctx X)} (h : k.SimilarPtr p q) (calls : List Call) :
    observe m.step p calls = observe m.step q calls :=
  observe_eq_of_bisim (fun _ _ call h => h.step call) h calls

end Coupling
end Probe
end Netdiag
