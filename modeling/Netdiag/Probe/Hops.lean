import Netdiag.Lib.Bank
import Netdiag.Probe.Books
import Netdiag.Probe.Immunity

/-!
# Hops — the counters of the hops beside those of the statistics

Traceroute counts a reply and a timeout twice: in its statistics, and in the slot of the hop that
the sequence number of the probe falls into.  The slots partition what the statistics count, up to
what callers record for a hop themselves (`hops_partition`).
-/

namespace Netdiag
namespace Traceroute

open Lib
open Probe (Role Event Call Result Counter)

/-! ## Recording -/

theorem recordHop_true (o : Own) (hop : Fin maxHops) (latencyMs : UInt32) :
    o.recordHop hop true latencyMs =
      { o with
          hopReplies := Bank.bump o.hopReplies hop 1
          hopSumLat := Bank.bump o.hopSumLat hop latencyMs
          hopCount := Bank.bump o.hopCount hop 1 } :=
  rfl

theorem recordHop_false (o : Own) (hop : Fin maxHops) (latencyMs : UInt32) :
    o.recordHop hop false latencyMs =
      { o with hopTimeouts := Bank.bump o.hopTimeouts hop 1 } :=
  rfl

/-- The hop that an argument of `traceroute_record_hop` names, if it names one. -/
def hopNamed (hop : Int) : Option (Fin maxHops) :=
  if h : hop.toNat < maxHops then
    if 0 ≤ hop then some ⟨hop.toNat, h⟩ else none
  else none

theorem hopNamed_eq_some_iff {hop : Int} {h : Fin maxHops} :
    hopNamed hop = some h ↔ hop = h.val := by
  have hlt := h.isLt
  rw [hopNamed]
  split_ifs with hbelow hneg
  · rw [Option.some.injEq, Fin.ext_iff]
    show hop.toNat = h.val ↔ hop = h.val
    omega
  · refine iff_of_false (fun hnone => by cases hnone) ?_
    omega
  · refine iff_of_false (fun hnone => by cases hnone) ?_
    omega

theorem named_iff (hop : Int) : (∃ h, hopNamed hop = some h) ↔ 0 ≤ hop ∧ hop < 32 := by
  simp only [hopNamed_eq_some_iff]
  constructor
  · intro hnamed
    rcases hnamed with ⟨h, rfl⟩
    have hlt : h.val < 32 := h.isLt
    omega
  · intro hhop
    have hlt : hop.toNat < 32 := by omega
    exact ⟨⟨hop.toNat, hlt⟩, (Int.toNat_of_nonneg hhop.1).symm⟩

theorem recordHop_eq (c : Ctx) (hop success : Int) (latencyMs : UInt32) :
    recordHop (some c) hop success latencyMs =
      match hopNamed hop with
      | some h => some { c with own := c.own.recordHop h (success ≠ 0) latencyMs }
      | none => some c := by
  rw [recordHop, Option.map_some]
  -- The source tests the bounds, and what is within them is a slot.
  by_cases hno : hop < 0 ∨ hop ≥ maxHops
  · have hnone : hopNamed hop = none := by
      rw [Option.eq_none_iff_forall_ne_some]
      intro h hsome
      have hyes := (named_iff hop).1 ⟨h, hsome⟩
      have hmax : ((maxHops : Nat) : Int) = 32 := rfl
      omega
    rw [dif_pos hno, hnone]
  · have hlt : hop.toNat < maxHops := by omega
    have hsome : hopNamed hop = some ⟨hop.toNat, hlt⟩ := by
      rw [hopNamed_eq_some_iff]
      show hop = (hop.toNat : Int)
      omega
    rw [dif_neg hno, hsome]

/-! ## What a call counts -/

/-- Everything that a call can do to the counters of the hops and to those of the statistics, with
the events that it makes.  A reset does something else. -/
inductive Counted (c : Ctx) : Ctx → List Event → Prop
  | same {c' : Ctx} (n : UInt32) : c'.own = { c.own with lastSeq := n } → c'.replies = c.replies →
      c'.timeouts = c.timeouts → c'.sumLat = c.sumLat → c'.countLat = c.countLat →
        Counted c c' []
  | reply {c' : Ctx} {ev : Event} : kind ev = some .replies →
      c'.own = c.own.recordHop (hopOf ev.seq) true ev.latencyMs → c'.replies = c.replies + 1 →
      c'.timeouts = c.timeouts → c'.sumLat = c.sumLat + ev.latencyMs →
      c'.countLat = c.countLat + 1 → Counted c c' [ev]
  | timeout {c' : Ctx} {ev : Event} : kind ev = some .timeouts →
      c'.own = c.own.recordHop (hopOf ev.seq) false 0 → c'.replies = c.replies →
      c'.timeouts = c.timeouts + 1 → c'.sumLat = c.sumLat → c'.countLat = c.countLat →
        Counted c c' [ev]

theorem Counted.refl (c : Ctx) : Counted c c [] :=
  .same c.own.lastSeq rfl rfl rfl rfl rfl

theorem counted_packet {c c' : Ctx} {d : List UInt8} {ts : UInt64} (hlen : 20 ≤ d.length)
    (hbody : feedBody c d ts = .ok c') : Counted c c' (packetEvent c d ts).toList := by
  have hin := Probe.of_returned (fun hout => feedBody_of_not_inBounds hlen hout ts) hbody
  rw [feedBody_eq hlen hin] at hbody
  cases hbody
  have htype : 21 ≤ d.length := by
    have hne := hin.1
    omega
  have hsame : 21 ≤ d.length ∧ (d.getD 20 0 = 11 ∨ d.getD 20 0 = 3) ∧ c.role = .requester ↔
      IsHopReply d ∧ c.role = .requester := and_iff_right htype
  rw [fed, packetEvent]
  by_cases hreply : IsHopReply d ∧ c.role = .requester
  · rw [if_pos hreply, if_pos (hsame.2 hreply)]
    exact .reply rfl rfl rfl rfl rfl rfl
  · rw [if_neg hreply, if_neg (hsame.not.2 hreply)]
    split_ifs
    · exact .same _ rfl rfl rfl rfl rfl
    · exact .same c.own.lastSeq rfl rfl rfl rfl rfl

/-- A packet that ends before the type of an ICMP message makes no event. -/
theorem events_of_short (c : Ctx) {call : Call} {d : List UInt8} {ts : UInt64}
    (hcall : call.Feeds d ts) (hshort : d.length < 20) : events c call = [] := by
  have hlen : ¬ 21 ≤ d.length := Nat.not_le_of_lt (Nat.lt_succ_of_lt hshort)
  rw [events, Probe.Call.events_of_feeds hcall, packetEvent, if_neg fun h => hlen h.1]
  rfl

/-- The step lemma for a call. -/
theorem counted_of_step {c c' : Ctx} {call : Call} {r : Result} (hne : call ≠ .reset)
    (h : traceroute.step (some c) call = .ok (some c', r)) : Counted c c' (events c call) := by
  rcases Probe.Module.step_transition h with ⟨c'', hptr, htrans⟩
  obtain rfl : c' = c'' := Option.some.inj hptr
  cases htrans with
  | fed hcall hlen hbody =>
      rw [events, Probe.Call.events_of_feeds hcall]
      exact counted_packet hlen hbody
  | short hcall hshort =>
      rw [events_of_short c hcall hshort]
      exact .refl c
  | @ticked ts hcall =>
      subst hcall
      show Counted c (processBody c ts) (c.expiry (timeoutEvent c) ts).toList
      rw [processBody, Probe.Ctx.expiry]
      split_ifs
      · exact .timeout rfl rfl rfl rfl rfl rfl
      · exact .refl c
  | popped hcall hpop =>
      subst hcall
      exact .same c.own.lastSeq rfl rfl rfl rfl rfl
  | looked hcall =>
      subst hcall
      exact .refl c
  | null hcall =>
      rcases hcall with rfl | ⟨_, rfl⟩ | rfl | rfl <;> exact .refl c
  | cleared hcall => exact absurd hcall hne

/-! ## Runs of all public functions -/

/-- What the operations make of a context. -/
def opPlay (ctx : Option Ctx) : List Op → Except Fault (Option Ctx)
  | [] => .ok ctx
  | op :: ops => do
      let (ctx, _) ← opStep ctx op
      opPlay ctx ops

/-- What callers have recorded for hops themselves. -/
structure Outside where
  replies : Nat
  timeouts : Nat
  sumLat : Nat

def Outside.none : Outside :=
  { replies := 0, timeouts := 0, sumLat := 0 }

/-- A record for a hop that there is counts; a reset clears all. -/
def Outside.add (o : Outside) : Op → Outside
  | .recordHop hop success latencyMs =>
      if 0 ≤ hop ∧ hop < 32 then
        if success ≠ 0 then
          { o with replies := o.replies + 1, sumLat := o.sumLat + latencyMs.toNat }
        else { o with timeouts := o.timeouts + 1 }
      else o
  | .call .reset => .none
  | _ => o

/-- What the operations have recorded since the last reset among them. -/
def outside (ops : List Op) : Outside :=
  ops.foldl Outside.add .none

/-- The counters of the hops sum up to those of the statistics and to what was recorded outside. -/
structure Partition (c : Ctx) (o : Outside) : Prop where
  replies : Bank.total c.own.hopReplies ≡ c.replies.toNat + o.replies [MOD 2 ^ 32]
  timeouts : Bank.total c.own.hopTimeouts ≡ c.timeouts.toNat + o.timeouts [MOD 2 ^ 32]
  sumLat : Bank.total c.own.hopSumLat ≡ c.sumLat.toNat + o.sumLat [MOD 2 ^ 32]
  count : Bank.total c.own.hopCount ≡ c.countLat.toNat + o.replies [MOD 2 ^ 32]
  same : ∀ h, c.own.hopCount.get h = c.own.hopReplies.get h

/-- What a record for a hop adds to the totals. -/
structure Gains (o o' : Own) (r t l : Nat) : Prop where
  replies : Bank.total o'.hopReplies ≡ Bank.total o.hopReplies + r [MOD 2 ^ 32]
  timeouts : Bank.total o'.hopTimeouts ≡ Bank.total o.hopTimeouts + t [MOD 2 ^ 32]
  sumLat : Bank.total o'.hopSumLat ≡ Bank.total o.hopSumLat + l [MOD 2 ^ 32]
  count : Bank.total o'.hopCount ≡ Bank.total o.hopCount + r [MOD 2 ^ 32]
  same : (∀ h, o.hopCount.get h = o.hopReplies.get h) →
    ∀ h, o'.hopCount.get h = o'.hopReplies.get h

theorem modEq_add_zero (a n : Nat) : a ≡ a + 0 [MOD n] :=
  Nat.ModEq.refl a

theorem gains_same (o : Own) (n : UInt32) : Gains o { o with lastSeq := n } 0 0 0 where
  replies := modEq_add_zero _ _
  timeouts := modEq_add_zero _ _
  sumLat := modEq_add_zero _ _
  count := modEq_add_zero _ _
  same := fun hsame => hsame

theorem gains_recordHop_true (o : Own) (hop : Fin maxHops) (latencyMs : UInt32) :
    Gains o (o.recordHop hop true latencyMs) 1 0 latencyMs.toNat := by
  rw [recordHop_true]
  exact
    { replies := Bank.total_bump_one o.hopReplies hop
      timeouts := modEq_add_zero _ _
      sumLat := Bank.total_bump o.hopSumLat hop latencyMs
      count := Bank.total_bump_one o.hopCount hop
      same := fun hsame h => by rw [Bank.get_bump, Bank.get_bump, hsame, hsame] }

theorem gains_recordHop_false (o : Own) (hop : Fin maxHops) (latencyMs : UInt32) :
    Gains o (o.recordHop hop false latencyMs) 0 1 0 := by
  rw [recordHop_false]
  exact
    { replies := modEq_add_zero _ _
      timeouts := Bank.total_bump_one o.hopTimeouts hop
      sumLat := modEq_add_zero _ _
      count := modEq_add_zero _ _
      same := fun hsame => hsame }

/-- The rule for a call: hops and statistics gain the same. -/
theorem Partition.inside {c c' : Ctx} {o : Outside} {r t l : Nat} (h : Partition c o)
    (hgains : Gains c.own c'.own r t l)
    (hreplies : c'.replies.toNat ≡ c.replies.toNat + r [MOD 2 ^ 32])
    (htimeouts : c'.timeouts.toNat ≡ c.timeouts.toNat + t [MOD 2 ^ 32])
    (hsum : c'.sumLat.toNat ≡ c.sumLat.toNat + l [MOD 2 ^ 32])
    (hcount : c'.countLat.toNat ≡ c.countLat.toNat + r [MOD 2 ^ 32]) : Partition c' o := by
  -- Both sides of a congruence gain the same, and what is outside stays.
  have both : ∀ {a a' b b' e x : Nat}, a ≡ b + e [MOD 2 ^ 32] → a' ≡ a + x [MOD 2 ^ 32] →
      b' ≡ b + x [MOD 2 ^ 32] → a' ≡ b' + e [MOD 2 ^ 32] := by
    intro a a' b b' e x hviews hleft hright
    calc
      a' ≡ a + x [MOD 2 ^ 32] := hleft
      _ ≡ b + e + x [MOD 2 ^ 32] := hviews.add_right x
      _ = b + x + e := Nat.add_right_comm b e x
      _ ≡ b' + e [MOD 2 ^ 32] := hright.symm.add_right e
  exact
    { replies := both h.replies hgains.replies hreplies
      timeouts := both h.timeouts hgains.timeouts htimeouts
      sumLat := both h.sumLat hgains.sumLat hsum
      count := both h.count hgains.count hcount
      same := hgains.same h.same }

/-- The rule for a record: hops gain what is recorded outside. -/
theorem Partition.outside {c : Ctx} {o : Outside} {own : Own} {r t l : Nat} (h : Partition c o)
    (hgains : Gains c.own own r t l) :
    Partition { c with own := own }
      { replies := o.replies + r, timeouts := o.timeouts + t, sumLat := o.sumLat + l } := by
  have more : ∀ {a a' b e x : Nat}, a ≡ b + e [MOD 2 ^ 32] → a' ≡ a + x [MOD 2 ^ 32] →
      a' ≡ b + (e + x) [MOD 2 ^ 32] := by
    intro a a' b e x hviews hleft
    calc
      a' ≡ a + x [MOD 2 ^ 32] := hleft
      _ ≡ b + e + x [MOD 2 ^ 32] := hviews.add_right x
      _ = b + (e + x) := Nat.add_assoc b e x
  exact
    { replies := more h.replies hgains.replies
      timeouts := more h.timeouts hgains.timeouts
      sumLat := more h.sumLat hgains.sumLat
      count := more h.count hgains.count
      same := hgains.same h.same }

theorem modEq_of_eq {a b : UInt32} (h : a = b) (n : Nat) : a.toNat ≡ b.toNat + 0 [MOD n] := by
  rw [h]
  exact modEq_add_zero _ _

theorem modEq_of_eq_add {a b x : UInt32} (h : a = b + x) :
    a.toNat ≡ b.toNat + x.toNat [MOD 2 ^ 32] := by
  rw [h]
  exact Bank.toNat_add_modEq b x

theorem modEq_of_eq_add_one {a b : UInt32} (h : a = b + 1) :
    a.toNat ≡ b.toNat + 1 [MOD 2 ^ 32] := by
  have hone := modEq_of_eq_add h
  rwa [UInt32.toNat_one] at hone

theorem Counted.partition {c c' : Ctx} {o : Outside} {es : List Event} (h : Counted c c' es)
    (hp : Partition c o) : Partition c' o := by
  cases h with
  | same n hown hreplies htimeouts hsum hcount =>
      have hgains := gains_same c.own n
      rw [← hown] at hgains
      exact hp.inside hgains (modEq_of_eq hreplies _) (modEq_of_eq htimeouts _)
        (modEq_of_eq hsum _) (modEq_of_eq hcount _)
  | @reply ev _ hown hreplies htimeouts hsum hcount =>
      have hgains := gains_recordHop_true c.own (hopOf ev.seq) ev.latencyMs
      rw [← hown] at hgains
      exact hp.inside hgains (modEq_of_eq_add_one hreplies) (modEq_of_eq htimeouts _)
        (modEq_of_eq_add hsum) (modEq_of_eq_add_one hcount)
  | @timeout ev _ hown hreplies htimeouts hsum hcount =>
      have hgains := gains_recordHop_false c.own (hopOf ev.seq) 0
      rw [← hown] at hgains
      exact hp.inside hgains (modEq_of_eq hreplies _) (modEq_of_eq_add_one htimeouts)
        (modEq_of_eq hsum _) (modEq_of_eq hcount _)

theorem partition_recordHop {c c' : Ctx} {o : Outside} {hop success : Int} {latencyMs : UInt32}
    (hp : Partition c o) (h : recordHop (some c) hop success latencyMs = some c') :
    Partition c' (o.add (.recordHop hop success latencyMs)) := by
  rw [recordHop_eq] at h
  rw [Outside.add]
  cases hnamed : hopNamed hop with
  | none =>
      have hno : ¬ (0 ≤ hop ∧ hop < 32) := by
        intro hyes
        rcases (named_iff hop).2 hyes with ⟨i, hsome⟩
        cases hnamed.symm.trans hsome
      rw [hnamed] at h
      cases h
      -- There is no such hop, and the record is ignored.
      rw [if_neg hno]
      exact hp
  | some i =>
      have hyes : 0 ≤ hop ∧ hop < 32 := (named_iff hop).1 ⟨i, hnamed⟩
      rw [hnamed] at h
      cases h
      rw [if_pos hyes]
      by_cases hsuccess : success ≠ 0
      · rw [if_pos hsuccess, decide_eq_true hsuccess]
        exact hp.outside (gains_recordHop_true c.own i latencyMs)
      · rw [if_neg hsuccess, decide_eq_false hsuccess]
        exact hp.outside (gains_recordHop_false c.own i latencyMs)

theorem partition_qinit (role : Role) (r : RawRing Event maxQ) (sendTs : UInt64) (own : Own)
    (size : Nat) : Partition (traceroute.qinit role r sendTs own size) .none := by
  have hzero : Bank.total (Bank.zero maxHops) = 0 := Bank.total_zero
  have hnone : Bank.total (Bank.zero maxHops) ≡ 0 [MOD 2 ^ 32] := by rw [hzero]
  exact ⟨hnone, hnone, hnone, hnone, fun _ => rfl⟩

/-! ## The partition over a run -/

/-- The packets that the operations feed have at least 30 bytes. -/
def LongFeeds (ops : List Op) : Prop :=
  ∀ call, .call call ∈ ops → ∀ d ts, call.Feeds d ts → 30 ≤ d.length

/-- The step lemma. -/
theorem partition_opStep {c : Ctx} {o : Outside} {op : Op} (hp : Partition c o)
    (hlong : ∀ call, op = .call call → ∀ d ts, call.Feeds d ts → 30 ≤ d.length) :
    ∃ c' r, opStep (some c) op = .ok (some c', r) ∧ Partition c' (o.add op) := by
  cases op with
  | call call =>
      have hreturns := returns.step (fun d ts hcall _ => hlong call rfl d ts hcall) c
      rcases hreturns with ⟨c', r, hstep⟩
      refine ⟨c', .call r, ?_, ?_⟩
      · rw [opStep, hstep]
        rfl
      · by_cases hreset : call = .reset
        · subst hreset
          cases hstep
          -- Both views are cleared, and so is what has been recorded outside.
          exact partition_qinit _ _ _ _ _
        · have hadd : o.add (.call call) = o := by
            cases call with
            | reset => exact absurd rfl hreset
            | feedInput d => rfl
            | feedInputWithTs d ts => rfl
            | process ts => rfl
            | nextEvent e => rfl
            | getStats s => rfl
          rw [hadd]
          exact (counted_of_step hreset hstep).partition hp
  | recordHop hop success latencyMs =>
      have hrecord : ∃ c', recordHop (some c) hop success latencyMs = some c' := by
        rw [recordHop, Option.map_some]
        exact ⟨_, rfl⟩
      rcases hrecord with ⟨c', hc'⟩
      refine ⟨c', .done, ?_, partition_recordHop hp hc'⟩
      rw [opStep, hc']
      rfl
  | hopLossPct hop => exact ⟨c, _, rfl, hp⟩

theorem partition_opPlay {ops : List Op} (hlong : LongFeeds ops) {c : Ctx} {o : Outside}
    (hp : Partition c o) :
    ∃ c', opPlay (some c) ops = .ok (some c') ∧ Partition c' (ops.foldl Outside.add o) := by
  induction ops generalizing c o with
  | nil => exact ⟨c, rfl, hp⟩
  | cons op ops ih =>
      rcases partition_opStep hp fun call hcall => hlong call (hcall ▸ List.mem_cons_self) with
        ⟨c₁, r, hfirst, hnext⟩
      rcases ih (fun call hmem => hlong call (List.mem_cons_of_mem _ hmem)) hnext with
        ⟨c', hplay, hlast⟩
      refine ⟨c', ?_, hlast⟩
      rw [opPlay, hfirst]
      exact hplay

/-- In every run, the slots of the hops partition what the statistics count and what callers have
recorded since the last reset. -/
theorem hops_partition (role : Role) (config : Option Probe.Config) {ops : List Op}
    (hlong : LongFeeds ops) :
    ∃ c', opPlay (some (traceroute.createWithConfig role config)) ops = .ok (some c') ∧
      Partition c' (Traceroute.outside ops) :=
  partition_opPlay hlong (partition_qinit role _ 0 _ _)

/-- A timeout of the statistics and records for hop 3, for hop -1 and for hop 32. -/
theorem hops_partition_records :
    ∃ c', opPlay (some (traceroute.createWithConfig .responder none))
        [.call (.feedInputWithTs (some probePacket) 1), .call (.process 2000),
          .recordHop 3 1 7, .recordHop (-1) 1 7, .recordHop 32 0 0] = .ok (some c') ∧
      Partition c' { replies := 1, timeouts := 0, sumLat := 7 } := by
  apply hops_partition .responder none
  intro call hcall d ts hfeeds
  simp only [List.mem_cons, List.not_mem_nil, or_false, Op.call.injEq, reduceCtorEq] at hcall
  rcases hcall with rfl | rfl
  · rcases hfeeds with hfed | ⟨hfed, _⟩
    · cases hfed
      decide
    · cases hfed
  · rcases hfeeds with hfed | ⟨hfed, _⟩ <;> cases hfed

end Traceroute
end Netdiag
