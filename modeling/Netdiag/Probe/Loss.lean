import Netdiag.Lib.Meter
import Netdiag.Probe.Hops

/-!
# Loss — the share of probes that time out

Ping, arping and arprecon report the percentage of probes that timed out, and traceroute reports it
for each hop.  The product by 100 is a 32-bit one, so the percentage is exact as long as there are
fewer than 42949673 timeouts (`loss_exact_iff`).

The statistics of traceroute report no loss.  They agree with the hops of a requester, whose probes
never time out, and with no responder's (`aggregate_loss_iff`).
-/

namespace Netdiag
namespace Probe

open Lib

variable {X : Type}

/-! ## Percentages -/

/-- The loss percentage of so many replies and timeouts, as the modules compute it. -/
def percent (r t : UInt32) : UInt32 :=
  if r + t ≠ 0 then (t * 100) / (r + t) else 0

theorem toNat_percent {r t : UInt32} (h : r.toNat + t.toNat < 2 ^ 32) :
    (percent r t).toNat = 100 * t.toNat % 2 ^ 32 / (r.toNat + t.toNat) := by
  have hsum : (r + t).toNat = r.toNat + t.toNat := by
    rw [UInt32.toNat_add, Nat.mod_eq_of_lt h]
  have hproduct : (t * 100).toNat = 100 * t.toNat % 2 ^ 32 := by
    rw [UInt32.toNat_mul, Nat.mul_comm]
    rfl
  rw [percent, ← hsum, ← hproduct]
  split_ifs with hne
  · exact UInt32.toNat_div _ _
  · rw [not_not.1 hne]
    exact (Nat.div_zero _).symm

theorem percent_exact_iff {r t : UInt32} (h : r.toNat + t.toNat < 2 ^ 32) :
    (percent r t).toNat = 100 * t.toNat / (r.toNat + t.toNat) ↔ 100 * t.toNat < 2 ^ 32 := by
  rw [toNat_percent h]
  -- Where nothing has been counted, both sides are 0.
  rcases Nat.eq_zero_or_pos (r.toNat + t.toNat) with hzero | hpos
  · have ht : t.toNat = 0 := (Nat.add_eq_zero_iff.1 hzero).2
    rw [ht]
    exact iff_of_true rfl (by decide)
  · exact mod_div_eq_iff hpos (Nat.le_of_lt h)

theorem percent_le {r t : UInt32} (h : r.toNat + t.toNat < 2 ^ 32) : (percent r t).toNat ≤ 100 := by
  rw [toNat_percent h]
  apply Nat.div_le_of_le_mul
  calc
    100 * t.toNat % 2 ^ 32 ≤ 100 * t.toNat := Nat.mod_le _ _
    _ ≤ (r.toNat + t.toNat) * 100 := by omega

/-! ## The statistics -/

variable {m : Module X} {kind : Event → Option Counter} {events : Ctx X → Call → List Event}

/-- The run lemma: a counter is the number of events since the last reset that belong to it. -/
theorem Module.Since.value_eq (hbooked : m.Booked kind events)
    (haside : ∀ c c' k, m.aside c c' → Counter.value c' k = Counter.value c k) {c : Ctx X}
    {es : List Event} (h : m.Since events c es) (k : Counter) :
    Counter.value c k = UInt32.ofNat (tally kind k es) := by
  refine h.invariant (J := fun c es => Counter.value c k = UInt32.ofNat (tally kind k es)) ?_ ?_ ?_
  · intro role r sendTs own s
    exact value_qinit role r sendTs own s k
  · intro c es call c' r _ ih hne hstep
    rw [tally_append, UInt32.ofNat_add, ← ih]
    rcases call.plain_or with hplain | ⟨e, rfl⟩ | hreset
    · exact (hbooked.plain hplain hstep).counts k
    · -- Taking an event changes the queue only.
      cases hstep
      rw [hbooked.next]
      cases k <;> exact (UInt32.add_zero _).symm
    · exact absurd hreset hne
  · intro c c' es ih hside
    rw [haside c c' k hside, ih]

/-- The module, where callers do not use the functions that only it has. -/
def Module.alone (m : Module X) : Module X :=
  { m with aside := fun _ _ => False }

/-- In every state the statistics count the replies and the timeouts since the last reset, and as
long as their number fits into a word, the loss is exact if and only if the product by 100 fits as
well. -/
def Module.TellsLoss (m : Module X) (kind : Event → Option Counter)
    (events : Ctx X → Call → List Event) (c : Ctx X) : Prop :=
  m.Reachable c →
    (∃ es, m.Since events c es ∧ c.replies = UInt32.ofNat (tally kind .replies es) ∧
      c.timeouts = UInt32.ofNat (tally kind .timeouts es)) ∧
    (c.replies.toNat + c.timeouts.toNat < 2 ^ 32 →
      ((c.stats (m.lossPct c)).lossPct.toNat =
          100 * c.timeouts.toNat / (c.replies.toNat + c.timeouts.toNat) ↔
        100 * c.timeouts.toNat < 2 ^ 32) ∧
      (c.stats (m.lossPct c)).lossPct.toNat ≤ 100)

theorem tellsLoss_of_booked (hbooked : m.Booked kind events) (hpct : m.lossPct = Ctx.lossPct)
    (haside : ∀ c c', ¬ m.aside c c') (c : Ctx X) : m.TellsLoss kind events c := by
  intro hreachable
  rcases hreachable.exists_since events with ⟨es, hsince⟩
  have hvalue := hsince.value_eq hbooked fun c c' _ hside => absurd hside (haside c c')
  have hloss : (c.stats (m.lossPct c)).lossPct = percent c.replies c.timeouts := by
    rw [hpct]
    rfl
  rw [hloss]
  exact ⟨⟨es, hsince, hvalue .replies, hvalue .timeouts⟩,
    fun h => ⟨percent_exact_iff h, percent_le h⟩⟩

end Probe

/-! ## The hops of traceroute -/

namespace Traceroute

open Lib
open Probe (Role Event Call Result Counter percent tally)

/-- One call of `traceroute_record_hop`. -/
structure Record where
  hop : Int
  success : Int
  latencyMs : UInt32

def recordAll (ctx : Option Ctx) (records : List Record) : Option Ctx :=
  records.foldl (fun ctx r => recordHop ctx r.hop r.success r.latencyMs) ctx

def successes (hop : Int) (records : List Record) : Nat :=
  records.countP fun r => r.hop = hop ∧ r.success ≠ 0

def failures (hop : Int) (records : List Record) : Nat :=
  records.countP fun r => r.hop = hop ∧ r.success = 0

theorem hopLossPct_val (c : Ctx) (h : Fin maxHops) :
    hopLossPct (some c) h.val =
      (percent (c.own.hopReplies.get h) (c.own.hopTimeouts.get h)).toInt32.toInt := by
  have hlt : h.val < 32 := h.isLt
  have hmax : ((maxHops : Nat) : Int) = 32 := rfl
  rw [hopLossPct, dif_neg (by omega), percent, apply_ite UInt32.toInt32, apply_ite Int32.toInt]
  rfl

theorem hopLossPct_of_none (c : Ctx) {hop : Int} (h : ¬ (0 ≤ hop ∧ hop < 32)) :
    hopLossPct (some c) hop = -1 := by
  have hmax : ((maxHops : Nat) : Int) = 32 := rfl
  rw [hopLossPct, dif_pos (by omega)]

theorem successes_cons (hop : Int) (r : Record) (records : List Record) :
    successes hop (r :: records) = successes hop [r] + successes hop records := by
  show successes hop ([r] ++ records) = _
  exact List.countP_append

theorem failures_cons (hop : Int) (r : Record) (records : List Record) :
    failures hop (r :: records) = failures hop [r] + failures hop records := by
  show failures hop ([r] ++ records) = _
  exact List.countP_append

/-- The counters of a hop have gained what was recorded for it. -/
def Recorded (c c' : Ctx) (records : List Record) : Prop :=
  ∀ h : Fin maxHops,
    c'.own.hopReplies.get h = c.own.hopReplies.get h + UInt32.ofNat (successes h.val records) ∧
    c'.own.hopTimeouts.get h = c.own.hopTimeouts.get h + UInt32.ofNat (failures h.val records)

/-- The step lemma. -/
theorem recorded_one (c : Ctx) (r : Record) :
    ∃ c', recordHop (some c) r.hop r.success r.latencyMs = some c' ∧ Recorded c c' [r] := by
  rw [recordHop_eq]
  cases hnamed : hopNamed r.hop with
  | none =>
      refine ⟨c, rfl, fun h => ?_⟩
      have hother : r.hop ≠ h.val := by
        intro heq
        rw [hopNamed_eq_some_iff.2 heq] at hnamed
        cases hnamed
      simp [successes, failures, hother]
  | some i =>
      have heq : r.hop = i.val := hopNamed_eq_some_iff.1 hnamed
      refine ⟨_, rfl, fun h => ?_⟩
      have hsame : r.hop = h.val ↔ i = h := by
        rw [heq, Fin.ext_iff]
        exact Int.natCast_inj
      by_cases hsuccess : r.success = 0
      · simp only [hsuccess, ne_eq, not_true, decide_false, recordHop_false, Bank.get_bump,
          successes, failures, List.countP_singleton, hsame]
        by_cases hi : i = h <;> simp [hi]
      · simp only [hsuccess, ne_eq, not_false_iff, decide_true, recordHop_true, Bank.get_bump,
          successes, failures, List.countP_singleton, hsame]
        by_cases hi : i = h <;> simp [hi]

/-- The run lemma. -/
theorem recorded_recordAll (c : Ctx) (records : List Record) :
    ∃ c', recordAll (some c) records = some c' ∧ Recorded c c' records := by
  induction records generalizing c with
  | nil => exact ⟨c, rfl, fun h => ⟨(UInt32.add_zero _).symm, (UInt32.add_zero _).symm⟩⟩
  | cons r records ih =>
      rcases recorded_one c r with ⟨c₁, hfirst, hgain⟩
      rcases ih c₁ with ⟨c', hrest, hmore⟩
      refine ⟨c', ?_, fun h => ?_⟩
      -- What the first record adds to the counters and what the others add, in one sum.
      · rw [recordAll, List.foldl_cons, hfirst]
        exact hrest
      · rw [(hmore h).1, (hmore h).2, (hgain h).1, (hgain h).2, successes_cons _ r records,
          failures_cons _ r records, UInt32.ofNat_add, UInt32.ofNat_add, UInt32.add_assoc,
          UInt32.add_assoc]
        exact ⟨rfl, rfl⟩

theorem toInt_toInt32 {x : UInt32} (h : x.toNat ≤ 100) : x.toInt32.toInt = x.toNat := by
  have hsmall : 2 * x.toBitVec.toNat < 2 ^ 32 := by
    have heq : x.toBitVec.toNat = x.toNat := rfl
    omega
  exact BitVec.toInt_eq_toNat_of_lt hsmall

/-- The context has recorded nothing for any hop. -/
def Fresh (c : Ctx) : Prop :=
  ∀ h : Fin maxHops, c.own.hopReplies.get h = 0 ∧ c.own.hopTimeouts.get h = 0

theorem fresh_qinit (role : Role) (r : Lib.RawRing Event maxQ) (sendTs : UInt64) (own : Own)
    (size : Nat) : Fresh (traceroute.qinit role r sendTs own size) :=
  fun h => ⟨Bank.get_zero h, Bank.get_zero h⟩

theorem Recorded.of_fresh {c c' : Ctx} {records : List Record} (h : Recorded c c' records)
    (hfresh : Fresh c) (i : Fin maxHops) :
    c'.own.hopReplies.get i = UInt32.ofNat (successes i.val records) ∧
    c'.own.hopTimeouts.get i = UInt32.ofNat (failures i.val records) := by
  rw [(h i).1, (h i).2, (hfresh i).1, (hfresh i).2, UInt32.zero_add, UInt32.zero_add]
  exact ⟨rfl, rfl⟩

/-- The loss of a hop is the percentage of what was recorded for it. -/
theorem hopLossPct_recorded {c c' : Ctx} {records : List Record} (hfresh : Fresh c)
    (hrecorded : Recorded c c' records) (h : Fin maxHops)
    (hfew : successes h.val records + failures h.val records < 2 ^ 32) :
    (hopLossPct (some c') h.val =
        ((100 * failures h.val records / (successes h.val records + failures h.val records) : Nat) :
          Int) ↔
      100 * failures h.val records < 2 ^ 32) ∧
    0 ≤ hopLossPct (some c') h.val ∧ hopLossPct (some c') h.val ≤ 100 := by
  have hcounts := hrecorded.of_fresh hfresh h
  have hreplies : (c'.own.hopReplies.get h).toNat = successes h.val records := by
    rw [hcounts.1]
    exact UInt32.toNat_ofNat_of_lt' (Nat.lt_of_le_of_lt (Nat.le_add_right _ _) hfew)
  have htimeouts : (c'.own.hopTimeouts.get h).toNat = failures h.val records := by
    rw [hcounts.2]
    exact UInt32.toNat_ofNat_of_lt' (Nat.lt_of_le_of_lt (Nat.le_add_left _ _) hfew)
  -- Neither counter has wrapped, so the percentage is one of the numbers recorded.
  rw [← hreplies, ← htimeouts] at hfew ⊢
  have hle := Probe.percent_le hfew
  rw [hopLossPct_val, toInt_toInt32 hle]
  exact ⟨Int.natCast_inj.trans (Probe.percent_exact_iff hfew), Int.natCast_nonneg _,
    Int.ofNat_le.2 hle⟩

/-- A record for another hop. -/
theorem hopLossPct_recordHop_of_ne {c : Ctx} {hop other : Int} (hne : other ≠ hop)
    (success : Int) (latencyMs : UInt32) :
    hopLossPct (recordHop (some c) other success latencyMs) hop = hopLossPct (some c) hop := by
  rcases recorded_one c { hop := other, success := success, latencyMs := latencyMs } with
    ⟨c', hrecord, hgain⟩
  rw [hrecord]
  by_cases hhop : 0 ≤ hop ∧ hop < 32
  · rcases (named_iff hop).2 hhop with ⟨h, hnamed⟩
    obtain rfl := hopNamed_eq_some_iff.1 hnamed
    have hsame := hgain h
    simp only [successes, failures, List.countP_singleton, hne, false_and, decide_false] at hsame
    rw [hopLossPct_val, hopLossPct_val, hsame.1, hsame.2]
    simp
  · rw [hopLossPct_of_none c' hhop, hopLossPct_of_none c hhop]

/-- The loss of a hop is exact if and only if the product by 100 fits into a word, and so is that
of the other modules. -/
theorem loss_exact_iff (role : Role) (r : RawRing Event maxQ) (sendTs : UInt64) (own : Own)
    (size : Nat) (records : List Record) (pc : Ping.Ctx) (ac : Arping.Ctx) (rc : Arprecon.Ctx) :
    (∃ c, recordAll (some (traceroute.qinit role r sendTs own size)) records = some c ∧
      (∀ hop : Int, successes hop records + failures hop records < 2 ^ 32 →
        (hopLossPct (some c) hop =
            ((100 * failures hop records / (successes hop records + failures hop records) : Nat) :
              Int) ↔
          (0 ≤ hop ∧ hop < 32) ∧ 100 * failures hop records < 2 ^ 32) ∧
        (0 ≤ hop → hop < 32 → 0 ≤ hopLossPct (some c) hop ∧ hopLossPct (some c) hop ≤ 100)) ∧
      ∀ hop other success latencyMs, other ≠ hop →
        hopLossPct (recordHop (some c) other success latencyMs) hop = hopLossPct (some c) hop) ∧
    Ping.ping.TellsLoss Ping.kind Ping.events pc ∧
    Arping.arping.TellsLoss Arping.kind Arping.events ac ∧
    Arprecon.arprecon.TellsLoss Arprecon.kind Arprecon.events rc := by
  refine ⟨?_, ?_, ?_, ?_⟩
  · rcases recorded_recordAll (traceroute.qinit role r sendTs own size) records with
      ⟨c, hall, hrecorded⟩
    refine ⟨c, hall, ?_, fun hop other success latencyMs hne =>
      hopLossPct_recordHop_of_ne hne success latencyMs⟩
    intro hop hfew
    by_cases hhop : 0 ≤ hop ∧ hop < 32
    · rcases (named_iff hop).2 hhop with ⟨h, hnamed⟩
      obtain rfl := hopNamed_eq_some_iff.1 hnamed
      have hloss := hopLossPct_recorded (fresh_qinit role r sendTs own size) hrecorded h hfew
      exact ⟨hloss.1.trans (and_iff_right hhop).symm, fun _ _ => hloss.2⟩
    -- For a hop that there is not the function returns -1, which is no percentage.
    · refine ⟨iff_of_false ?_ fun h => hhop h.1, fun hpos hlt => absurd ⟨hpos, hlt⟩ hhop⟩
      rw [hopLossPct_of_none c hhop]
      exact (Int.lt_of_lt_of_le (by decide : (-1 : Int) < 0) (Int.natCast_nonneg _)).ne
  · exact Probe.tellsLoss_of_booked Ping.booked rfl (fun _ _ h => h) pc
  · exact Probe.tellsLoss_of_booked Arping.booked rfl (fun _ _ h => h) ac
  · exact Probe.tellsLoss_of_booked Arprecon.booked rfl (fun _ _ h => h) rc

/-- One answer and two timeouts at hop 3. -/
theorem loss_exact_three :
    ∃ c, recordAll (some (traceroute.create .requester))
        [⟨3, 1, 7⟩, ⟨3, 0, 0⟩, ⟨2, 0, 0⟩, ⟨3, 0, 0⟩] = some c ∧ hopLossPct (some c) 3 = 66 := by
  have hloss := loss_exact_iff .requester (RawRing.calloc {}) 0 traceroute.calloc 8
    [⟨3, 1, 7⟩, ⟨3, 0, 0⟩, ⟨2, 0, 0⟩, ⟨3, 0, 0⟩] (Ping.create .requester)
    (Arping.create .requester) (Arprecon.create .requester)
  rcases hloss.1 with ⟨c, hall, hhops, _⟩
  exact ⟨c, hall, (hhops 3 (by decide)).1.2 (by decide)⟩

/-- The number of timeouts from which on the product by 100 wraps, all of them at hop 0. -/
def lost : List Record :=
  List.replicate 42949673 ⟨0, 0, 0⟩

/-- All probes are lost, and the loss is 0 percent. -/
theorem loss_wrapped :
    successes 0 lost = 0 ∧ failures 0 lost = 42949673 ∧
    hopLossPct (recordAll (some (traceroute.create .requester)) lost) 0 = 0 ∧
    ¬ hopLossPct (recordAll (some (traceroute.create .requester)) lost) 0 =
      ((100 * failures 0 lost / (successes 0 lost + failures 0 lost) : Nat) : Int) := by
  have hsuccesses : successes 0 lost = 0 := List.countP_replicate
  have hfailures : failures 0 lost = 42949673 := List.countP_replicate
  rcases recorded_recordAll (traceroute.create .requester) lost with ⟨c, hall, hrecorded⟩
  have hcounts : c.own.hopReplies.get 0 = UInt32.ofNat (successes 0 lost) ∧
      c.own.hopTimeouts.get 0 = UInt32.ofNat (failures 0 lost) :=
    hrecorded.of_fresh (fresh_qinit .requester _ 0 _ 8) 0
  have hzero : hopLossPct (some c) 0 = 0 := by
    have hpercent := hopLossPct_val c 0
    rw [hcounts.1, hcounts.2, hsuccesses, hfailures] at hpercent
    exact hpercent
  rw [hall, hzero, hsuccesses, hfailures]
  exact ⟨rfl, rfl, rfl, by decide⟩

/-! ## The loss of all hops -/

/-- The events of the probes that count for the hop. -/
def atHop (hop : Fin maxHops) (es : List Event) : List Event :=
  es.filter fun e => hopOf e.seq = hop

theorem tally_atHop_singleton {e : Event} {k₀ : Counter} (hkind : kind e = some k₀)
    (hop : Fin maxHops) (k : Counter) :
    tally kind k (atHop hop [e]) = if hopOf e.seq = hop then (if k₀ = k then 1 else 0) else 0 := by
  rw [atHop, List.filter_singleton]
  by_cases hhop : hopOf e.seq = hop
  · rw [decide_eq_true hhop, if_pos hhop]
    exact Probe.tally_singleton hkind k
  · rw [decide_eq_false hhop, if_neg hhop]
    rfl

/-- The counters of a hop have gained the events of its probes. -/
def CountsAt (c c' : Ctx) (es : List Event) : Prop :=
  ∀ h : Fin maxHops,
    c'.own.hopReplies.get h =
      c.own.hopReplies.get h + UInt32.ofNat (tally kind .replies (atHop h es)) ∧
    c'.own.hopTimeouts.get h =
      c.own.hopTimeouts.get h + UInt32.ofNat (tally kind .timeouts (atHop h es))

theorem Counted.countsAt {c c' : Ctx} {es : List Event} (h : Counted c c' es) :
    CountsAt c c' es := by
  intro hop
  cases h with
  | same n hown =>
      rw [hown]
      exact ⟨(UInt32.add_zero _).symm, (UInt32.add_zero _).symm⟩
  | @reply ev hkind hown =>
      rw [hown, recordHop_true, tally_atHop_singleton hkind, tally_atHop_singleton hkind]
      simp only [Bank.get_bump]
      by_cases hhop : hopOf ev.seq = hop <;> simp [hhop]
  | @timeout ev hkind hown =>
      rw [hown, recordHop_false, tally_atHop_singleton hkind, tally_atHop_singleton hkind]
      simp only [Bank.get_bump]
      by_cases hhop : hopOf ev.seq = hop <;> simp [hhop]

/-- The counter that the probes of a context belong to: a requester's never time out, and a
responder gets no replies. -/
def side : Role → Counter
  | .requester => .replies
  | .responder => .timeouts

/-- The context keeps its role, a requester does not wait, and the events are of its side. -/
structure OneSided (c c' : Ctx) (es : List Event) : Prop where
  role : c'.role = c.role
  idle : c.role = .requester → c'.waiting = false
  events : ∀ e ∈ es, kind e = some (side c.role)

theorem OneSided.same {c c' : Ctx} (hrole : c'.role = c.role)
    (hidle : c.role = .requester → c'.waiting = false) : OneSided c c' [] where
  role := hrole
  idle := hidle
  events e he := by cases he

theorem oneSided_fed {c : Ctx} (hidle : c.role = .requester → c.waiting = false) (d : List UInt8)
    (ts : UInt64) : OneSided c (fed c d ts) (packetEvent c d ts).toList where
  role := by
    rw [fed]
    split_ifs <;> rfl
  idle := by
    intro hrole
    rw [fed]
    split_ifs with hreply hprobe
    · rfl
    · cases hrole.symm.trans hprobe.2
    · exact hidle hrole
  events := by
    intro e he
    rw [packetEvent] at he
    split_ifs at he with hreply
    · obtain rfl := List.mem_singleton.1 he
      rw [hreply.2.2]
      rfl
    · cases he

theorem oneSided_processBody {c : Ctx} (hidle : c.role = .requester → c.waiting = false)
    (ts : UInt64) : OneSided c (processBody c ts) (c.expiry (timeoutEvent c) ts).toList where
  role := by
    rw [processBody]
    split_ifs <;> rfl
  idle := by
    intro hrole
    rw [processBody]
    split_ifs
    · rfl
    · exact hidle hrole
  events := by
    intro e he
    rw [Probe.Ctx.expiry] at he
    split_ifs at he with hexpired
    · -- A probe has waited, so the context is a responder.
      have hrole : c.role = .responder := by
        cases hrole : c.role with
        | requester => cases (hidle hrole).symm.trans hexpired.1
        | responder => rfl
      obtain rfl := List.mem_singleton.1 he
      rw [hrole]
      rfl
    · cases he

/-- The step lemma for the sides. -/
theorem oneSided_of_step {c c' : Ctx} {call : Call} {r : Result}
    (hidle : c.role = .requester → c.waiting = false)
    (h : traceroute.step (some c) call = .ok (some c', r)) : OneSided c c' (events c call) := by
  rcases Probe.Module.step_transition h with ⟨c'', hptr, htrans⟩
  obtain rfl : c' = c'' := Option.some.inj hptr
  cases htrans with
  | @fed d ts _ hcall hlen hbody =>
      have hin := Probe.of_returned (fun hout => feedBody_of_not_inBounds hlen hout ts) hbody
      cases (feedBody_eq hlen hin ts).symm.trans hbody
      rw [events, Probe.Call.events_of_feeds hcall]
      exact oneSided_fed hidle d ts
  | short hcall hshort =>
      rw [events_of_short c hcall hshort]
      exact .same rfl hidle
  | @ticked ts hcall =>
      subst hcall
      exact oneSided_processBody hidle ts
  | popped hcall hpop =>
      subst hcall
      exact .same (Probe.Module.role_of_pop hpop) hidle
  | looked hcall =>
      subst hcall
      exact .same rfl hidle
  | null hcall =>
      rcases hcall with rfl | ⟨_, rfl⟩ | rfl | rfl <;> exact .same rfl hidle
  | cleared hcall =>
      subst hcall
      exact .same rfl fun _ => rfl

/-- The counters of a hop are the numbers of the events of its probes, and all events are of the
context's side. -/
structure Sided (c : Ctx) (es : List Event) : Prop where
  replies : ∀ hop, c.own.hopReplies.get hop = UInt32.ofNat (tally kind .replies (atHop hop es))
  timeouts : ∀ hop, c.own.hopTimeouts.get hop = UInt32.ofNat (tally kind .timeouts (atHop hop es))
  idle : c.role = .requester → c.waiting = false
  events : ∀ e ∈ es, kind e = some (side c.role)

theorem atHop_append (hop : Fin maxHops) (es fs : List Event) :
    atHop hop (es ++ fs) = atHop hop es ++ atHop hop fs :=
  List.filter_append es fs

/-- So few events do not wrap, and neither do their percents. -/
theorem toNat_length_atHop {es : List Event} (hfew : es.length < 2 ^ 25) (hop : Fin maxHops) :
    (UInt32.ofNat (atHop hop es).length).toNat = (atHop hop es).length ∧
      100 * (atHop hop es).length < 2 ^ 32 := by
  have hle : (atHop hop es).length < 2 ^ 25 :=
    Nat.lt_of_le_of_lt (List.length_filter_le _ _) hfew
  refine ⟨UInt32.toNat_ofNat_of_lt' (hle.trans (by decide)), ?_⟩
  omega

/-- The run lemma. -/
theorem sided_of_since {c : Ctx} {es : List Event} (h : traceroute.alone.Since events c es) :
    Sided c es := by
  refine h.invariant ?_ ?_ ?_
  · intro role r sendTs own s
    have hfresh := fresh_qinit role r sendTs own s
    refine ⟨fun hop => (hfresh hop).1, fun hop => (hfresh hop).2, fun _ => rfl, fun e he => ?_⟩
    cases he
  · intro c es call c' r _ ih hne hstep
    have hcounts := (counted_of_step hne hstep).countsAt
    have hside := oneSided_of_step ih.idle hstep
    refine ⟨fun hop => ?_, fun hop => ?_, fun hrole => hside.idle (hside.role ▸ hrole), ?_⟩
    · rw [(hcounts hop).1, ih.replies, atHop_append, Probe.tally_append, UInt32.ofNat_add]
    · rw [(hcounts hop).2, ih.timeouts, atHop_append, Probe.tally_append, UInt32.ofNat_add]
    · rw [hside.role]
      exact List.forall_mem_append.2 ⟨ih.events, hside.events⟩
  · intro c c' es _ hside
    exact hside.elim

theorem Sided.forall_atHop {c : Ctx} {es : List Event} (h : Sided c es) (hop : Fin maxHops) :
    ∀ e ∈ atHop hop es, kind e = some (side c.role) :=
  fun e he => h.events e (List.mem_of_mem_filter he)

theorem Sided.total {c : Ctx} {es : List Event} (h : Sided c es) :
    tally kind .replies es + tally kind .timeouts es = es.length := by
  rw [Probe.tally_of_forall h.events, Probe.tally_of_forall h.events]
  cases c.role with
  | requester => rfl
  | responder => exact Nat.zero_add _

/-- Something has been recorded for the hop since the last reset. -/
def Used (c : Ctx) (hop : Fin maxHops) : Prop :=
  c.own.hopReplies.get hop ≠ 0 ∨ c.own.hopTimeouts.get hop ≠ 0

/-- The loss of the statistics lies between the smallest and the largest loss of these hops. -/
def LossBetween (c : Ctx) : Prop :=
  (∃ hop, Used c hop ∧
    hopLossPct (some c) hop.val ≤ ((c.stats (traceroute.lossPct c)).lossPct.toNat : Int)) ∧
  ∃ hop, Used c hop ∧
    ((c.stats (traceroute.lossPct c)).lossPct.toNat : Int) ≤ hopLossPct (some c) hop.val

theorem percent_zero (r : UInt32) : percent r 0 = 0 := by
  rw [percent]
  split_ifs
  · rw [UInt32.zero_mul]
    exact UInt32.zero_div
  · rfl

/-- Where nothing is answered all is lost. -/
theorem toNat_percent_of_lost {t : UInt32} (hsome : t ≠ 0) (hfew : 100 * t.toNat < 2 ^ 32) :
    (percent 0 t).toNat = 100 := by
  have hpos : 0 < t.toNat := Nat.pos_of_ne_zero fun h => hsome (UInt32.toNat_inj.1 h)
  have hlt : (0 : UInt32).toNat + t.toNat < 2 ^ 32 := by
    rw [UInt32.toNat_zero]
    omega
  rw [(Probe.percent_exact_iff hlt).2 hfew, UInt32.toNat_zero, Nat.zero_add]
  exact Nat.mul_div_cancel 100 hpos

/-- Nothing is lost at a requester's hops, and all at a responder's. -/
theorem Sided.loss_eq {c : Ctx} {es : List Event} (h : Sided c es) (hfew : es.length < 2 ^ 25)
    {hop : Fin maxHops} (hused : Used c hop) :
    hopLossPct (some c) hop.val = match c.role with
      | .requester => 0
      | .responder => 100 := by
  have hreplies := h.replies hop
  have htimeouts := h.timeouts hop
  rw [Probe.tally_of_forall (h.forall_atHop hop)] at hreplies htimeouts
  rw [hopLossPct_val]
  cases hrole : c.role with
  | requester =>
      rw [hrole] at htimeouts
      rw [htimeouts]
      exact congrArg (fun x => x.toInt32.toInt) (percent_zero _)
  | responder =>
      rw [hrole] at hreplies htimeouts
      have hzero : c.own.hopReplies.get hop = 0 := hreplies
      have hcount : c.own.hopTimeouts.get hop = UInt32.ofNat (atHop hop es).length :=
        htimeouts
      have hsome : c.own.hopTimeouts.get hop ≠ 0 := hused.resolve_left (not_not.2 hzero)
      have hsmall : 100 * (c.own.hopTimeouts.get hop).toNat < 2 ^ 32 := by
        rw [hcount, (toNat_length_atHop hfew hop).1]
        exact (toNat_length_atHop hfew hop).2
      have hall := toNat_percent_of_lost hsome hsmall
      rw [hzero, toInt_toInt32 (Nat.le_of_eq hall), hall]
      rfl

/-- The hop of an event is used. -/
theorem Sided.exists_used {c : Ctx} {es : List Event} (h : Sided c es) (hsome : es ≠ [])
    (hfew : es.length < 2 ^ 25) : ∃ hop, Used c hop := by
  rcases List.exists_mem_of_ne_nil es hsome with ⟨e, he⟩
  have hmem : e ∈ atHop (hopOf e.seq) es :=
    List.mem_filter.2 ⟨he, decide_eq_true rfl⟩
  have hpos : 0 < (atHop (hopOf e.seq) es).length := List.length_pos_of_mem hmem
  have hne : UInt32.ofNat (atHop (hopOf e.seq) es).length ≠ 0 := by
    intro hzero
    have hnat := congrArg UInt32.toNat hzero
    rw [(toNat_length_atHop hfew _).1] at hnat
    exact hpos.ne' hnat
  have hreplies := h.replies (hopOf e.seq)
  have htimeouts := h.timeouts (hopOf e.seq)
  rw [Probe.tally_of_forall (h.forall_atHop _)] at hreplies htimeouts
  refine ⟨hopOf e.seq, ?_⟩
  cases hrole : c.role with
  | requester =>
      rw [hrole] at hreplies
      exact .inl (hreplies ▸ hne)
  | responder =>
      rw [hrole] at htimeouts
      exact .inr (htimeouts ▸ hne)

/-- In every run without records of callers that has had a reply or a timeout since the last reset,
and fewer than `2 ^ 25`, the loss of the statistics agrees with that of the hops if and only if the
context is a requester. -/
theorem aggregate_loss_iff {c : Ctx} {es : List Event} (h : traceroute.alone.Since events c es)
    (hsome : 0 < tally kind .replies es + tally kind .timeouts es)
    (hfew : tally kind .replies es + tally kind .timeouts es < 2 ^ 25) :
    LossBetween c ↔ c.role = .requester := by
  have hsided := sided_of_since h
  rw [hsided.total] at hsome hfew
  have hloss : ((c.stats (traceroute.lossPct c)).lossPct.toNat : Int) = 0 := rfl
  rw [LossBetween, hloss]
  constructor
  · intro hbetween
    rcases hbetween.1 with ⟨hop, hused, hle⟩
    rw [hsided.loss_eq hfew hused] at hle
    -- The reported 0 is below the loss of every hop of a responder.
    cases hrole : c.role with
    | requester => rfl
    | responder =>
        rw [hrole] at hle
        exact absurd hle (by decide)
  · intro hrole
    -- One used hop is enough for both bounds, as its loss is 0.
    rcases hsided.exists_used (List.ne_nil_of_length_pos hsome) hfew with ⟨hop, hused⟩
    have hzero := hsided.loss_eq hfew hused
    rw [hrole] at hzero
    exact ⟨⟨hop, hused, hzero.le⟩, ⟨hop, hused, hzero.ge⟩⟩

/-- An ICMP error, up to its type. -/
def timeExceeded : List UInt8 :=
  List.replicate 20 0 ++ [11]

/-- A requester that has had one answer. -/
theorem aggregate_loss_answered :
    ∃ c, traceroute.feedInput (some (traceroute.create .requester)) (some timeExceeded) =
      .ok (0, some c) ∧ LossBetween c := by
  have hfed : traceroute.alone.step (some (traceroute.alone.createWithConfig .requester none))
      (.feedInput (some timeExceeded)) =
        .ok (some (fed (traceroute.create .requester) timeExceeded 0), .code 0) := rfl
  have hcreated : traceroute.alone.Since events (traceroute.create .requester) [] :=
    .create .requester none
  have hsince := hcreated.call (fun h => by cases h) hfed
  exact ⟨_, rfl, (aggregate_loss_iff hsince (by decide) (by decide)).2 rfl⟩

/-- A responder that has taken a probe at time 1 and looked at the time at 2000. -/
theorem aggregate_loss_nothing :
    ∃ c es, traceroute.alone.Since events c es ∧
      tally kind .replies es + tally kind .timeouts es = 1 ∧
      (c.stats (traceroute.lossPct c)).lossPct = 0 ∧ hopLossPct (some c) 0 = 100 ∧
      ¬ LossBetween c := by
  have hfed : traceroute.alone.step (some (traceroute.alone.createWithConfig .responder none))
      (.feedInputWithTs (some probePacket) 1) = .ok (some probed, .code 0) := rfl
  have hlate : traceroute.alone.step (some probed) (.process 2000) =
      .ok (some (processBody probed 2000), .code 0) := rfl
  have hcreated : traceroute.alone.Since events (traceroute.create .responder) [] :=
    .create .responder none
  have hsince := (hcreated.call (fun h => by cases h) hfed).call (fun h => by cases h) hlate
  refine ⟨_, _, hsince, rfl, rfl, rfl, ?_⟩
  intro hbetween
  rcases hbetween.1 with ⟨hop, hused, hle⟩
  rw [(sided_of_since hsince).loss_eq (by decide) hused] at hle
  exact absurd hle (by decide)

end Traceroute
end Netdiag
