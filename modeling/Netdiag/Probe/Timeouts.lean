import Netdiag.Probe.Books

/-!
# Timeouts — the echo requests that ping times out

A responder of ping has room for one probe: the number and the time of the last echo request, and
whether it waits.  Of several requests only the last can time out (`all_time_out_iff`).  A request
without a time waits with the time of another one, and the sum of a late time and the delay
overflows; where neither happens, no timeout comes early (`timely_iff`).
-/

namespace Netdiag
namespace Ping

open Lib
open Probe (Role Event EventType Call)

/-! ## Requests, and what a call does to a responder -/

/-- An echo request with the time it came at. -/
structure Request where
  seq : UInt32
  ts : UInt64
  deriving DecidableEq, Repr

def requested : Call → Option Request
  | .feedInput (some d) =>
      if IsEchoRequest d then some { seq := (be16At d 6).toUInt32, ts := 0 } else none
  | .feedInputWithTs (some d) ts =>
      if IsEchoRequest d then some { seq := (be16At d 6).toUInt32, ts := ts } else none
  | _ => none

def requests (calls : List Call) : List Request :=
  calls.filterMap requested

theorem requested_of_feeds {call : Call} {d : List UInt8} {ts : UInt64} (h : call.Feeds d ts) :
    requested call =
      if IsEchoRequest d then some { seq := (be16At d 6).toUInt32, ts := ts } else none := by
  rcases h with rfl | ⟨rfl, rfl⟩ <;> rfl

/-- A responder's context after a request. -/
def awaiting (c : Ctx) (q : Request) : Ctx :=
  { c.request q.ts with own := { lastSeq := q.seq } }

/-- Everything that a call can do to a responder's context. -/
inductive Responds (c : Ctx) : Call → Ctx → Prop
  | request {call : Call} {q : Request} : requested call = some q → Responds c call (awaiting c q)
  | process (now : UInt64) : Responds c (.process now) (processBody c now)
  | next {e e' : Event} {r : Int} {q : QueueCtx Role Event} : c.pop e = (r, q, e') →
      Responds c (.nextEvent (some e)) { c with toQueueCtx := q }
  | reset : Responds c .reset (ping.qinit c.role c.ring.1 c.sendTs c.own c.qsz)
  | idle {call : Call} : requested call = none → (∀ now, call ≠ .process now) → call ≠ .reset →
      Responds c call c

/-- The inversion lemma for a call on a responder's context. -/
theorem responds_of_step {c c' : Ctx} {call : Call} {r : Probe.Result}
    (hrole : c.role = .responder) (h : ping.step (some c) call = .ok (some c', r)) :
    Responds c call c' := by
  rcases Probe.Module.step_transition h with ⟨c'', hptr, htrans⟩
  obtain rfl : c' = c'' := Option.some.inj hptr
  cases htrans with
  | @fed d ts _ hcall hlen hbody =>
      have hfed : feedBody c d ts = .ok c' := hbody
      have hreply : ¬ (IsEchoReply d ∧ c.role = .requester) := by
        intro hreply
        cases hrole.symm.trans hreply.2
      rw [feedBody_eq hlen, fed, if_neg hreply] at hfed
      have hrequested := requested_of_feeds hcall
      by_cases hrequest : IsEchoRequest d
      · rw [if_pos ⟨hrequest, hrole⟩] at hfed
        rw [if_pos hrequest] at hrequested
        cases hfed
        exact .request hrequested
      · rw [if_neg fun hboth => hrequest hboth.1] at hfed
        rw [if_neg hrequest] at hrequested
        cases hfed
        exact .idle hrequested (Probe.Call.ne_process_of_feeds hcall)
          (Probe.Call.plain_of_feeds hcall).2
  | @short d ts hcall hshort =>
      have hrequest : ¬ IsEchoRequest d := fun hrequest => Nat.not_le_of_lt hshort hrequest.1
      have hrequested := requested_of_feeds hcall
      rw [if_neg hrequest] at hrequested
      exact .idle hrequested (Probe.Call.ne_process_of_feeds hcall)
        (Probe.Call.plain_of_feeds hcall).2
  | @ticked ts hcall =>
      subst hcall
      exact .process ts
  | popped hcall hpop =>
      subst hcall
      exact .next hpop
  | looked hcall =>
      subst hcall
      refine .idle rfl (fun now h => ?_) fun h => ?_ <;> cases h
  | null hcall =>
      rcases hcall with rfl | ⟨_, rfl⟩ | rfl | rfl <;>
        refine .idle rfl (fun now h => ?_) fun h => ?_ <;> cases h
  | cleared hcall =>
      subst hcall
      exact .reset

theorem Responds.role {c c' : Ctx} {call : Call} (h : Responds c call c') : c'.role = c.role := by
  cases h with
  | request => rfl
  | process now =>
      rw [processBody]
      split_ifs <;> rfl
  | next hpop => exact Probe.Module.role_of_pop hpop
  | reset => rfl
  | idle => rfl

/-! ## Several requests -/

/-- The calls feed echo requests to a responder whose queue is empty and could hold a timeout of
each; nothing is timed out or reset in between. -/
structure Outstanding (c : Ctx) (calls : List Call) : Prop where
  role : c.role = .responder
  empty : c.queued = []
  reset : .reset ∉ calls
  process : ∀ now, .process now ∉ calls
  dated : ∀ q ∈ requests calls, q.ts ≠ 0
  ordered : (requests calls).Pairwise fun q q' => q.ts ≤ q'.ts
  distinct : ((requests calls).map Request.seq).Nodup
  fits : (requests calls).length ≤ c.qsz

/-- Some calls of `ping_process`, at times when all the requests are overdue, make a timeout of each
of them and of nothing else, and the statistics count as many. -/
def AllTimeOut (c : Ctx) (calls : List Call) : Prop :=
  ∃ nows : List UInt64,
    (∀ now ∈ nows, ∀ q ∈ requests calls, q.ts.toNat + 1000 < now.toNat) ∧
    ∃ c₁ c₂ es, ping.play (some c) calls = .ok (some c₁) ∧
      ping.play (some c₁) (nows.map Call.process) = .ok (some c₂) ∧ c₂.Drains es ∧
      ((es.filter fun e => e.type = .pingTimeout).map Event.seq).Perm
        ((requests calls).map Request.seq) ∧
      c₂.timeouts.toNat = c.timeouts.toNat + (requests calls).length

/-- What the requests leave: an empty queue, and the last of them waiting. -/
structure Awaits (c₀ : Ctx) (c : Ctx) (qs : List Request) : Prop where
  role : c.role = .responder
  empty : c.queued = []
  qsz : c.qsz = c₀.qsz
  timeouts : c.timeouts = c₀.timeouts
  last : ∀ q, qs.getLast? = some q →
    c.waiting = true ∧ c.own.lastSeq = q.seq ∧ (q.ts ≠ 0 → c.sendTs = q.ts)

theorem Awaits.step {c₀ c c' : Ctx} {qs : List Request} {call : Call} {r : Probe.Result}
    (h : Awaits c₀ c qs) (hprocess : ∀ now, call ≠ .process now) (hreset : call ≠ .reset)
    (hstep : ping.step (some c) call = .ok (some c', r)) :
    Awaits c₀ c' (qs ++ (requested call).toList) := by
  cases responds_of_step h.role hstep with
  | @request _ q hrequested =>
      rw [hrequested, Option.toList_some]
      refine { role := h.role, empty := h.empty, qsz := h.qsz, timeouts := h.timeouts, last := ?_ }
      intro q' hlast
      rw [List.getLast?_concat] at hlast
      obtain rfl : q = q' := Option.some.inj hlast
      exact ⟨rfl, rfl, fun hts => if_pos hts⟩
  | process now => exact absurd rfl (hprocess now)
  | @next e _ _ _ hpop =>
      -- Nothing can be taken.
      rw [QueueCtx.pop_of_nil h.empty] at hpop
      cases hpop
      simpa [requested] using h
  | reset => exact absurd rfl hreset
  | idle hrequested _ _ =>
      rw [hrequested, Option.toList_none, List.append_nil]
      exact h

theorem Outstanding.awaits {c c' : Ctx} {calls : List Call} (h : Outstanding c calls)
    (hplay : ping.play (some c) calls = .ok (some c')) : Awaits c c' (requests calls) := by
  have hstart : Awaits c c [] :=
    { role := h.role
      empty := h.empty
      qsz := rfl
      timeouts := rfl
      last := fun q hq => by cases hq }
  refine Probe.Module.play_invariant requested ?_ hstart hplay
  intro call hmem c₁ qs c₂ r hawaits hstep
  refine hawaits.step ?_ ?_ hstep
  · intro now hcall
    exact h.process now (hcall ▸ hmem)
  · intro hcall
    exact h.reset (hcall ▸ hmem)

/-- A context that does not wait stays as it is. -/
theorem play_process_of_idle {c : Ctx} (h : c.waiting = false) (nows : List UInt64) :
    ping.play (some c) (nows.map Call.process) = .ok (some c) := by
  induction nows with
  | nil => rfl
  | cons now nows ih =>
      have htick : processBody c now = c := if_neg fun hexpired => by
        cases h.symm.trans hexpired.1
      have hstep : ping.step (some c) (.process now) = .ok (some c, .code 0) :=
        congrArg (fun c => Except.ok (some c, Probe.Result.code 0)) htick
      rw [List.map_cons, Probe.Module.play, hstep]
      exact ih

/-- However often the time is told: one probe times out at most. -/
theorem play_process (c : Ctx) (nows : List UInt64) :
    (ping.play (some c) (nows.map Call.process) = .ok (some c)) ∨
      (∃ now ∈ nows, c.Expired now) ∧ ping.play (some c) (nows.map Call.process) =
        .ok (some (c.timeout (timeoutEvent c))) := by
  induction nows with
  | nil => exact .inl rfl
  | cons now nows ih =>
      rw [List.map_cons, Probe.Module.play]
      by_cases hexpired : c.Expired now
      · have htick : processBody c now = c.timeout (timeoutEvent c) := if_pos hexpired
        have hstep : ping.step (some c) (.process now) =
            .ok (some (c.timeout (timeoutEvent c)), .code 0) :=
          congrArg (fun c => Except.ok (some c, Probe.Result.code 0)) htick
        rw [hstep]
        exact .inr ⟨⟨now, List.mem_cons_self, hexpired⟩, play_process_of_idle rfl nows⟩
      · have htick : processBody c now = c := if_neg hexpired
        have hstep : ping.step (some c) (.process now) = .ok (some c, .code 0) :=
          congrArg (fun c => Except.ok (some c, Probe.Result.code 0)) htick
        rw [hstep]
        refine ih.imp_right ?_
        rintro ⟨⟨now', hmem, hlater⟩, hplay⟩
        exact ⟨⟨now', List.mem_cons_of_mem _ hmem, hlater⟩, hplay⟩

theorem play_returns (c : Ctx) (calls : List Call) :
    ∃ c', ping.play (some c) calls = .ok (some c') :=
  Probe.Module.play_returns (fun _ _ => returns.step fun _ _ _ hlen => hlen) c

theorem queued_timeout {c : Ctx} (h : c.queued = []) (ev : Event) : (c.timeout ev).queued = [ev] :=
  QueueCtx.queued_pushAll_of_nil h [ev] c.qsz_pos

/-- One probe waits at most, so one request at most can time out. -/
theorem Outstanding.one_of_allTimeOut {c : Ctx} {calls : List Call} (h : Outstanding c calls)
    (hall : AllTimeOut c calls) :
    requests calls = [] ∨
      ∃ q, requests calls = [q] ∧ q.ts.toNat + 1001 < 2 ^ 64 ∧ c.timeouts.toNat + 1 < 2 ^ 32 := by
  rcases hall with ⟨nows, hlate, c₁, c₂, es, hplay, hprocess, hdrains, hperm, htimeouts⟩
  have hawaits := h.awaits hplay
  have hes : es = c₂.queued := hdrains.eq_queued {}
  rcases play_process c₁ nows with hsame | ⟨⟨now, hmem, _⟩, htimeout⟩
  · -- Nothing has timed out, so there was nothing that could.
    cases hsame.symm.trans hprocess
    rw [hes, hawaits.empty, List.filter_nil, List.map_nil] at hperm
    exact .inl (List.map_eq_nil_iff.1 hperm.nil_eq.symm)
  · cases htimeout.symm.trans hprocess
    have hone : ((requests calls).map Request.seq).length = 1 := by
      rw [← hperm.length_eq, hes, queued_timeout hawaits.empty]
      rfl
    rw [List.length_map, List.length_eq_one_iff] at hone
    rcases hone with ⟨q, hq⟩
    have hlt := hlate now hmem q (hq ▸ List.mem_singleton_self q)
    have hbound := now.toNat_lt
    have hcount : (c₁.timeouts + 1).toNat = c.timeouts.toNat + 1 := by
      rw [hq] at htimeouts
      exact htimeouts
    have hmod := (c₁.timeouts + 1).toNat_lt
    exact .inr ⟨q, hq, by omega, by omega⟩

theorem Outstanding.allTimeOut_of_none {c : Ctx} {calls : List Call} (h : Outstanding c calls)
    (hnone : requests calls = []) : AllTimeOut c calls := by
  rcases play_returns c calls with ⟨c₁, hplay⟩
  have hawaits := h.awaits hplay
  refine ⟨[], fun now hnow => absurd hnow List.not_mem_nil, c₁, c₁, c₁.queued, hplay, rfl,
    c₁.drains_queued, ?_, ?_⟩
  · rw [hawaits.empty, hnone]
    exact .nil
  · rw [hawaits.timeouts, hnone]
    rfl

theorem Outstanding.allTimeOut_of_one {c : Ctx} {calls : List Call} (h : Outstanding c calls)
    {q : Request} (hq : requests calls = [q]) (hlate : q.ts.toNat + 1001 < 2 ^ 64)
    (hcount : c.timeouts.toNat + 1 < 2 ^ 32) : AllTimeOut c calls := by
  rcases play_returns c calls with ⟨c₁, hplay⟩
  have hawaits := h.awaits hplay
  rcases hawaits.last q (hq ▸ rfl) with ⟨hwaiting, hseq, hts⟩
  have hset : q.ts ≠ 0 := h.dated q (hq ▸ List.mem_singleton_self q)
  have hsend := hts hset
  have hnow : (q.ts + 1001).toNat = q.ts.toNat + 1001 := by
    rw [UInt64.toNat_add]
    exact Nat.mod_eq_of_lt hlate
  have hsum : (q.ts + 1000).toNat = q.ts.toNat + 1000 := by
    rw [UInt64.toNat_add]
    exact Nat.mod_eq_of_lt (Nat.lt_of_succ_lt hlate)
  -- One call at the first time that is late enough.
  have hexpired : c₁.Expired (q.ts + 1001) := by
    refine ⟨hwaiting, hsend ▸ hset, ?_⟩
    rw [hsend, gt_iff_lt, UInt64.lt_iff_toNat_lt, hnow, hsum]
    exact Nat.lt_succ_self _
  have hprocess : ping.play (some c₁) [.process (q.ts + 1001)] =
      .ok (some (c₁.timeout (timeoutEvent c₁))) :=
    congrArg (fun c => Except.ok (some c)) (if_pos hexpired)
  refine ⟨[q.ts + 1001], ?_, c₁, _, _, hplay, hprocess, QueueCtx.drains_queued _, ?_, ?_⟩
  · intro now hnow' q' hq'
    rw [hq, List.mem_singleton] at hq'
    rw [List.mem_singleton] at hnow'
    rw [hq', hnow', hnow]
    exact Nat.lt_succ_self _
  · have hevent : (timeoutEvent c₁).seq = q.seq := hseq
    rw [queued_timeout hawaits.empty, hq, List.map_singleton, ← hevent]
    exact .refl _
  · have hraised : (c₁.timeouts + 1).toNat = c.timeouts.toNat + 1 := by
      rw [hawaits.timeouts, UInt32.toNat_add]
      exact Nat.mod_eq_of_lt hcount
    rw [hq]
    exact hraised

/-- All of the requests time out exactly if there is none, or a single one that a time can be later
than and the counter of timeouts has room for. -/
theorem all_time_out_iff {c : Ctx} {calls : List Call} (h : Outstanding c calls) :
    AllTimeOut c calls ↔ requests calls = [] ∨
      ∃ q, requests calls = [q] ∧ q.ts.toNat + 1001 < 2 ^ 64 ∧ c.timeouts.toNat + 1 < 2 ^ 32 := by
  constructor
  · intro hall
    exact h.one_of_allTimeOut hall
  · intro hone
    rcases hone with hnone | ⟨q, hq, hlate, hcount⟩
    · exact h.allTimeOut_of_none hnone
    · exact h.allTimeOut_of_one hq hlate hcount

/-- An echo request with the number `seq`, fed at time `1`. -/
def requestCall (seq : UInt8) : Call :=
  .feedInputWithTs (some [8, 0, 0, 0, 0, 0, 0, seq]) 1

theorem outstanding_requests (calls : List Call)
    (h : calls = [requestCall 0] ∨ calls = [requestCall 0, requestCall 1]) :
    Outstanding (ping.create .responder) calls := by
  rcases h with rfl | rfl
  · exact ⟨rfl, rfl, by simp [requestCall], by simp [requestCall], by decide, by decide, by decide,
      by decide⟩
  · exact ⟨rfl, rfl, by simp [requestCall], by simp [requestCall], by decide, by decide, by decide,
      by decide⟩

theorem all_time_out_one : AllTimeOut (ping.create .responder) [requestCall 0] :=
  (all_time_out_iff (outstanding_requests _ (.inl rfl))).2
    (.inr ⟨⟨0, 1⟩, rfl, by decide, by decide⟩)

/-- Of two requests one never times out. -/
theorem request_lost :
    Outstanding (ping.create .responder) [requestCall 0, requestCall 1] ∧
    ¬ AllTimeOut (ping.create .responder) [requestCall 0, requestCall 1] := by
  have h := outstanding_requests [requestCall 0, requestCall 1] (.inr rfl)
  refine ⟨h, ?_⟩
  intro hall
  have htwo : requests [requestCall 0, requestCall 1] = [⟨0, 1⟩, ⟨1, 1⟩] := rfl
  rcases h.one_of_allTimeOut hall with hnone | ⟨q, hq, _⟩
  · cases htwo.symm.trans hnone
  · cases htwo.symm.trans hq

/-! ## Early timeouts -/

/-- What a run has to do with timeouts. -/
inductive Note
  | request (q : Request)
  | timeout (seq : UInt32)
  | reset
  deriving DecidableEq, Repr

def note : Probe.Visit Own → List Note
  | (c, .process now) =>
      ((events c (.process now)).filter fun e => e.type = .pingTimeout).map fun e => .timeout e.seq
  | (_, .reset) => [.reset]
  | (_, call) => (requested call).toList.map .request

/-- The notes of the run that the calls make. -/
def noted (c : Ctx) (calls : List Call) : List Note :=
  (ping.visits c calls).flatMap note

/-- The request is the latest since the last reset, and nothing has timed out since. -/
def Pending (past : List Note) (q : Request) : Prop :=
  ∃ older newer, past = older ++ .request q :: newer ∧
    (∀ q', .request q' ∉ newer) ∧ .reset ∉ newer ∧ ∀ seq, .timeout seq ∉ newer

/-- Every timeout that `ping_process` makes at this time is one of the latest request, which came
with a time, is overdue, and has not timed out before. -/
def Timely (c : Ctx) (past : List Note) (now : UInt64) : Prop :=
  ∀ e ∈ events c (.process now), e.type = .pingTimeout →
    ∃ q, Pending past q ∧ e.seq = q.seq ∧ q.ts ≠ 0 ∧ q.ts.toNat + 1000 < now.toNat

/-- At every point of the run and every time. -/
def AlwaysTimely (c : Ctx) (calls : List Call) : Prop :=
  ∀ before c', before <+: calls → ping.play (some c) before = .ok (some c') →
    ∀ now, Timely c' (noted c before) now

/-- The request comes with a time that leaves room for the delay, or it comes without one and finds
none with which it could time out. -/
def Dated (c : Ctx) (q : Request) : Prop :=
  q.ts ≠ 0 ∧ q.ts.toNat + 1000 < 2 ^ 64 ∨
    q.ts = 0 ∧ (c.sendTs = 0 ∨ c.sendTs = 0xFFFFFFFFFFFFFC17)

/-- Every request of the run does so. -/
def AlwaysDated (c : Ctx) (calls : List Call) : Prop :=
  ∀ v ∈ ping.visits c calls, ∀ q, requested v.2 = some q → Dated v.1 q

theorem pending_iff {past : List Note} {q : Request} :
    Pending past q ↔ past.getLast? = some (.request q) := by
  constructor
  · intro h
    rcases h with ⟨older, newer, rfl, hrequest, hreset, htimeout⟩
    cases newer with
    | nil => exact List.getLast?_concat
    | cons n newer =>
        -- There is no kind of note that could come after the request.
        cases n with
        | request q' => exact absurd List.mem_cons_self (hrequest q')
        | timeout seq => exact absurd List.mem_cons_self (htimeout seq)
        | reset => exact absurd List.mem_cons_self hreset
  · intro h
    rcases List.getLast?_eq_some_iff.1 h with ⟨older, rfl⟩
    exact ⟨older, [], rfl, fun _ => List.not_mem_nil, List.not_mem_nil, fun _ => List.not_mem_nil⟩

theorem note_of_requested {c : Ctx} {call : Call} {q : Request} (h : requested call = some q) :
    note (c, call) = [.request q] := by
  cases call with
  | feedInput d =>
      rw [note, h]
      · rfl
      · intro now hcall
        cases hcall
      · intro hcall
        cases hcall
  | feedInputWithTs d ts =>
      rw [note, h]
      · rfl
      · intro now hcall
        cases hcall
      · intro hcall
        cases hcall
  | process now => cases h
  | nextEvent e => cases h
  | getStats s => cases h
  | reset => cases h

theorem note_of_not_requested {c : Ctx} {call : Call} (h : requested call = none)
    (hprocess : ∀ now, call ≠ .process now) (hreset : call ≠ .reset) : note (c, call) = [] := by
  rw [note, h]
  · rfl
  · exact hprocess
  · exact hreset

/-- What waits is the latest request: its number is kept, and so is its time unless it has none. -/
structure Waits (c : Ctx) (past : List Note) : Prop where
  role : c.role = .responder
  last : c.waiting = true → ∃ q, past.getLast? = some (.request q) ∧ c.own.lastSeq = q.seq ∧
    (Probe.SameTimer c.sendTs 0 ∨ c.sendTs = q.ts ∧ q.ts.toNat + 1000 < 2 ^ 64)

/-- The step lemma. -/
theorem Waits.step {c c' : Ctx} {past : List Note} {call : Call} {r : Probe.Result}
    (h : Waits c past) (hdated : ∀ q, requested call = some q → Dated c q)
    (hstep : ping.step (some c) call = .ok (some c', r)) :
    Waits c' (past ++ note (c, call)) := by
  have hresponds := responds_of_step h.role hstep
  refine { role := hresponds.role.trans h.role, last := ?_ }
  intro hwaiting
  cases hresponds with
  | @request _ q hrequested =>
      rw [note_of_requested hrequested]
      refine ⟨q, List.getLast?_concat, rfl, ?_⟩
      rcases hdated q hrequested with ⟨hset, hroom⟩ | ⟨hnone, hnever⟩
      · exact .inr ⟨if_pos hset, hroom⟩
      · have hkept : (awaiting c q).sendTs = c.sendTs := if_neg (not_not_intro hnone)
        rw [hkept]
        exact .inl (Probe.sameTimer_zero_iff.2 hnever)
  | process now =>
      by_cases hexpired : c.Expired now
      · rw [processBody, if_pos hexpired] at hwaiting
        cases hwaiting
      · -- Nothing has happened.
        have hsame : processBody c now = c := if_neg hexpired
        have hnone : note (c, .process now) = [] := by
          rw [note, events, Call.events, Probe.Ctx.expiry, if_neg hexpired]
          rfl
        rw [hsame] at hwaiting ⊢
        rw [hnone, List.append_nil]
        exact h.last hwaiting
  | @next e _ _ _ _ =>
      have hnone : note (c, .nextEvent (some e)) = [] := rfl
      rw [hnone, List.append_nil]
      exact h.last hwaiting
  | reset => cases hwaiting
  | idle hrequested hprocess hreset =>
      rw [note_of_not_requested hrequested hprocess hreset, List.append_nil]
      exact h.last hwaiting

theorem waits_create (config : Option Probe.Config) :
    Waits (ping.createWithConfig .responder config) [] where
  role := rfl
  last := fun hwaiting => by cases hwaiting

/-- The run lemma. -/
theorem Waits.play {c c' : Ctx} {calls : List Call} (h : Waits c []) (hdated : AlwaysDated c calls)
    (hplay : ping.play (some c) calls = .ok (some c')) : Waits c' (noted c calls) := by
  refine Probe.Module.play_history
    (J := fun c past => Waits c (past.flatMap note)) ?_ h hplay
  intro v hv past c₁ r hwaits hstep
  rw [List.flatMap_append, List.flatMap_singleton]
  exact hwaits.step (hdated v hv) hstep

/-- What expires is the latest request, and only in time. -/
theorem Waits.timely {c : Ctx} {past : List Note} (h : Waits c past) (now : UInt64) :
    Timely c past now := by
  intro e he _
  have hevents : events c (.process now) = (c.expiry (timeoutEvent c) now).toList := rfl
  rw [hevents, Probe.Ctx.expiry] at he
  by_cases hexpired : c.Expired now
  · rw [if_pos hexpired, Option.toList_some, List.mem_singleton] at he
    rcases hexpired with ⟨hwaiting, hset, hlate⟩
    rcases h.last hwaiting with ⟨q, hlast, hseq, htimer⟩
    refine ⟨q, pending_iff.2 hlast, ?_⟩
    rw [he]
    rcases htimer with hnever | ⟨hts, hroom⟩
    · exact absurd rfl ((hnever now).1 ⟨hset, hlate⟩).1
    · -- The sum is one of numbers.
      have hsum : (q.ts + 1000).toNat = q.ts.toNat + 1000 := by
        rw [UInt64.toNat_add]
        exact Nat.mod_eq_of_lt hroom
      rw [hts, gt_iff_lt, UInt64.lt_iff_toNat_lt, hsum] at hlate
      exact ⟨hseq, hts ▸ hset, hlate⟩
  · rw [if_neg hexpired] at he
    cases he

/-- A responder takes every request. -/
theorem step_of_requested {c : Ctx} (hrole : c.role = .responder) {call : Call} {q : Request}
    (h : requested call = some q) :
    ∃ r, ping.step (some c) call = .ok (some (awaiting c q), r) := by
  rcases returns.step (fun _ _ _ hlen => hlen) c with ⟨c', r, hstep⟩
  refine ⟨r, ?_⟩
  cases responds_of_step hrole hstep with
  | request hrequested =>
      cases h.symm.trans hrequested
      exact hstep
  | process now => cases h
  | next _ => cases h
  | reset => cases h
  | idle hrequested _ _ => cases h.symm.trans hrequested

theorem role_of_play {c c' : Ctx} {calls : List Call} (hrole : c.role = .responder)
    (hplay : ping.play (some c) calls = .ok (some c')) : c'.role = .responder := by
  refine Probe.Module.play_history (J := fun c _ => c.role = .responder) ?_ hrole hplay
  intro v _ _ c₁ r hrole hstep
  exact (responds_of_step hrole hstep).role.trans hrole

/-- A request that is not dated makes a timeout that is not timely, at the latest time of all. -/
theorem dated_of_timely {c : Ctx} {past : List Note} {call : Call} {q : Request}
    (hrequested : requested call = some q)
    (htimely : Timely (awaiting c q) (past ++ note (c, call)) 0xFFFFFFFFFFFFFFFF) : Dated c q := by
  by_contra hundated
  rw [Dated, not_or, not_and, not_and, not_or] at hundated
  -- The time that the request waits with is one that a timeout comes of.
  have htimer : ¬ Probe.SameTimer (awaiting c q).sendTs 0 := by
    rw [Probe.sameTimer_zero_iff]
    by_cases hts : q.ts = 0
    · have hkept : (awaiting c q).sendTs = c.sendTs := if_neg (not_not_intro hts)
      rw [hkept, not_or]
      exact hundated.2 hts
    · have hset : (awaiting c q).sendTs = q.ts := if_pos hts
      rw [hset]
      rintro (hnone | hlast)
      · exact hts hnone
      · exact hundated.1 hts (by rw [hlast]; decide)
  have hexpired : (awaiting c q).Expired 0xFFFFFFFFFFFFFFFF := by
    rw [Probe.sameTimer_zero_iff, not_or] at htimer
    exact ⟨rfl, htimer.1, Probe.sum_lt_last htimer.2⟩
  have hevents : timeoutEvent (awaiting c q) ∈
      events (awaiting c q) (.process 0xFFFFFFFFFFFFFFFF) := by
    show _ ∈ ((awaiting c q).expiry (timeoutEvent (awaiting c q)) _).toList
    rw [Probe.Ctx.expiry, if_pos hexpired]
    exact List.mem_singleton_self _
  rcases htimely _ hevents rfl with ⟨q', hpending, _, hset, hlate⟩
  rw [pending_iff, note_of_requested hrequested, List.getLast?_concat] at hpending
  cases hpending
  have hmax : (0xFFFFFFFFFFFFFFFF : UInt64).toNat = 2 ^ 64 - 1 := rfl
  have hroom := hundated.1 hset
  omega

/-- Whatever calls are made on a responder's context: the timeouts are timely, at every point and
every time, exactly if the requests are dated. -/
theorem timely_iff (config : Option Probe.Config) (calls : List Call) :
    AlwaysTimely (ping.createWithConfig .responder config) calls ↔
      AlwaysDated (ping.createWithConfig .responder config) calls := by
  have hstart := waits_create config
  generalize ping.createWithConfig .responder config = c₀ at hstart ⊢
  constructor
  · intro htimely v hv q hrequested
    rcases Probe.Module.exists_play_of_mem_visits hv with ⟨before, hprefix, hplay⟩
    rcases v with ⟨c, call⟩
    -- The run up to and with the request, and the time told after it.
    rcases step_of_requested (role_of_play hstart.role hplay) hrequested with ⟨r, hstep⟩
    have hnext : ping.play (some c₀) (before ++ [call]) = .ok (some (awaiting c q)) := by
      rw [Probe.Module.play_append, hplay]
      show ping.play (some c) [call] = _
      rw [Probe.Module.play, hstep]
      rfl
    have hnoted : noted c₀ (before ++ [call]) = noted c₀ before ++ note (c, call) := by
      rw [noted, Probe.Module.visits_append hplay, Probe.Module.visits_cons hstep,
        List.flatMap_append, noted]
      exact congrArg (noted c₀ before ++ ·) (List.append_nil _)
    have hlast := htimely (before ++ [call]) _ hprefix hnext 0xFFFFFFFFFFFFFFFF
    rw [hnoted] at hlast
    exact dated_of_timely hrequested hlast
  · intro hdated before c hprefix hplay now
    rcases hprefix with ⟨after, rfl⟩
    have hbefore : AlwaysDated c₀ before := by
      intro v hv
      apply hdated
      rw [Probe.Module.visits_append hplay]
      exact List.mem_append_left _ hv
    exact (hstart.play hbefore hplay).timely now

/-- A request at time `1`, and one without a time that waits with the time of the first. -/
theorem early_timeout :
    ¬ AlwaysTimely (ping.create .responder)
      [requestCall 0, .feedInput (some [8, 0, 0, 0, 0, 0, 0, 1])] := by
  intro htimely
  have hplay : ping.play (some (ping.create .responder))
      [requestCall 0, .feedInput (some [8, 0, 0, 0, 0, 0, 0, 1])] =
        .ok (some (awaiting (awaiting (ping.create .responder) ⟨0, 1⟩) ⟨1, 0⟩)) := rfl
  have hmem : timeoutEvent (awaiting (awaiting (ping.create .responder) ⟨0, 1⟩) ⟨1, 0⟩) ∈
      events (awaiting (awaiting (ping.create .responder) ⟨0, 1⟩) ⟨1, 0⟩) (.process 2000) := by
    decide
  rcases htimely _ _ List.prefix_rfl hplay 2000 _ hmem rfl with ⟨q, hpending, _, hset, _⟩
  rw [pending_iff] at hpending
  have hlast : (noted (ping.create .responder)
      [requestCall 0, .feedInput (some [8, 0, 0, 0, 0, 0, 0, 1])]).getLast? =
        some (.request ⟨1, 0⟩) := rfl
  cases hlast.symm.trans hpending
  exact hset rfl

end Ping
end Netdiag
