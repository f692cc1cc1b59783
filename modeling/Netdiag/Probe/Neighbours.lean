import Netdiag.Lib.Pairs
import Netdiag.Probe.Books

/-!
# Neighbours — what the table and the duplicates of arprecon stand for

The table holds the first 64 senders since the last reset.  `Ledger` adds to it that the duplicates
are the pairs of them with one address and two MACs, so a spoof event is queued only for such a
pair with the reply that was fed: what a reset leaves in the table raises no alarm
(`Arprecon.neighbours_and_duplicates`).
-/

namespace Netdiag
namespace Arprecon

open Lib
open Probe (Role Event EventType Call Counter Books tally)

/-- Two senders have one address and different MACs. -/
def Clash (a b : Announcement) : Prop :=
  a.ip = b.ip ∧ a.mac ≠ b.mac

instance (a b : Announcement) : Decidable (Clash a b) :=
  inferInstanceAs (Decidable (_ ∧ _))

/-- The neighbour in a slot. -/
def Own.neighbour (o : Own) (i : Fin maxNeigh) : Announcement where
  ip := o.neighIps.get i
  mac := o.neighMacs.get i

/-- The pairs of places that clash among the first 64 announcements. -/
def clashes (as : List Announcement) : Finset (Nat × Nat) :=
  pairs Clash (as.take maxNeigh)

/-- The neighbours are the first announcements, and the duplicates are their clashes. -/
structure Ledger (c : Ctx) (as : List Announcement) : Prop where
  table : Table c as
  dups : c.dups.toNat = (clashes as).card

theorem Ledger.qinit (r : RawRing Event maxQ) (sendTs : UInt64) (own : Own) (size : Nat) :
    Ledger (arprecon.qinit .requester r sendTs own size) [] where
  table := .qinit r sendTs own size
  dups := rfl

/-! ## The clashes with one more announcement -/

theorem clashes_concat_of_room {as : List Announcement} (hroom : as.length < maxNeigh)
    (a : Announcement) : clashes (as ++ [a]) = pairs Clash (as ++ [a]) := by
  rw [clashes, List.take_of_length_le]
  rw [List.length_append, List.length_singleton]
  exact hroom

theorem clashes_concat_of_full {as : List Announcement} (hfull : ¬ as.length < maxNeigh)
    (a : Announcement) : clashes (as ++ [a]) = clashes as := by
  rw [clashes, clashes, List.take_append_of_le_length (Nat.le_of_not_lt hfull)]

theorem card_clashes_concat (as : List Announcement) (a : Announcement) :
    (clashes (as ++ [a])).card =
      (clashes as).card + if as.length < maxNeigh then as.countP (Clash · a) else 0 := by
  by_cases hroom : as.length < maxNeigh
  · rw [clashes_concat_of_room hroom, card_pairs_concat, if_pos hroom, clashes,
      List.take_of_length_le (Nat.le_of_lt hroom)]
  · -- The announcement has no place any more.
    rw [clashes_concat_of_full hroom, if_neg hroom, Nat.add_zero]

/-- The last announcement is in a clash exactly if it has a place and conflicts with one before. -/
theorem exists_mem_clashes_concat (as : List Announcement) (a : Announcement) :
    (∃ i, (i, as.length) ∈ clashes (as ++ [a])) ↔ as.length < maxNeigh ∧ Conflicts as a := by
  by_cases hroom : as.length < maxNeigh
  · rw [clashes_concat_of_room hroom, exists_mem_pairs_concat, and_iff_right hroom]
    exact Iff.rfl
  · refine iff_of_false ?_ fun h => hroom h.1
    rintro ⟨i, hi⟩
    have hlt := lt_length_of_mem_pairs hi
    rw [List.length_take] at hlt
    omega

/-- No announcement has the place behind the last. -/
theorem not_mem_clashes_length (as : List Announcement) :
    ¬ ∃ i, (i, as.length) ∈ clashes as := by
  rintro ⟨i, hi⟩
  have hlt := lt_length_of_mem_pairs hi
  rw [List.length_take] at hlt
  omega

/-! ## What the code counts -/

/-- While there is room, the slots hold all of the announcements. -/
theorem Table.announced_eq {c : Ctx} {as : List Announcement} (h : Table c as)
    (hroom : c.own.neighCount < maxNeigh) :
    as = c.own.slots.map c.own.neighbour := by
  have hcount : c.own.neighCount = as.length := by
    have hmin := h.count
    omega
  apply List.ext_getElem?
  intro i
  have hslots : c.own.slots.length = c.own.neighCount := length_slotsBelow _ _
  by_cases hi : i < c.own.neighCount
  · have hslot := h.entry ⟨i, hi.trans hroom⟩ hi
    have hplace : i < c.own.slots.length := by omega
    rw [hslot, List.getElem?_map, List.getElem?_eq_getElem hplace, Option.map_some]
    simp only [Own.slots, slotsBelow, List.getElem_map, List.getElem_finRange]
    rfl
  · rw [List.getElem?_eq_none (by omega), List.getElem?_eq_none]
    rw [List.length_map]
    omega

/-- The loop finds a conflict for each announcement that clashes with the reply. -/
theorem Table.conflictsOf_eq {c : Ctx} {as : List Announcement} (h : Table c as) (d : List UInt8) :
    conflictsOf c d =
      if as.length < maxNeigh then as.countP (Clash · (announcement d)) else 0 := by
  have hcount := h.count
  have hsame : c.own.neighCount < maxNeigh ↔ as.length < maxNeigh := by omega
  rw [conflictsOf]
  by_cases hroom : c.own.neighCount < maxNeigh
  · rw [if_pos hroom, if_pos (hsame.1 hroom), Own.conflicts]
    conv_rhs => rw [h.announced_eq hroom, List.countP_map]
    rfl
  · rw [if_neg hroom, if_neg (hsame.not.1 hroom)]

theorem tally_dups_packet (c : Ctx) (d : List UInt8) (ts : UInt64) :
    tally kind .dups (packetEvents c d ts) =
      if IsReply d ∧ c.role = .requester then conflictsOf c d else 0 := by
  rw [packetEvents]
  split_ifs with hreply
  · rw [tally, List.countP_cons, List.countP_replicate]
    rfl
  · rfl

/-- A packet makes a spoof event exactly if the reply in it is the second of a clash. -/
theorem Table.exists_spoof_iff {c : Ctx} {as : List Announcement} (h : Table c as)
    (d : List UInt8) (ts : UInt64) :
    (∃ e ∈ packetEvents c d ts, e.type = .arpSpoof) ↔ ∃ i, (i, as.length) ∈
      clashes (as ++ (if IsReply d then some (announcement d) else none).toList) := by
  have htally : (∃ e ∈ packetEvents c d ts, e.type = .arpSpoof) ↔
      0 < tally kind .dups (packetEvents c d ts) := by
    rw [tally, List.countP_pos_iff]
    simp only [kind_eq_dups, decide_eq_true_eq]
  rw [htally, tally_dups_packet]
  by_cases hreply : IsReply d
  · rw [if_pos hreply, if_pos ⟨hreply, h.role⟩, h.conflictsOf_eq, Option.toList_some,
      exists_mem_clashes_concat]
    by_cases hroom : as.length < maxNeigh
    · rw [if_pos hroom, and_iff_right hroom, List.countP_pos_iff]
      simp only [decide_eq_true_eq]
      exact Iff.rfl
    · rw [if_neg hroom]
      exact iff_of_false (Nat.lt_irrefl 0) fun hboth => hroom hboth.1
  · rw [if_neg hreply, if_neg fun hboth => hreply hboth.1, Option.toList_none, List.append_nil]
    exact iff_of_false (Nat.lt_irrefl 0) (not_mem_clashes_length as)

/-- The duplicates that a call adds are the clashes that the reply in it adds. -/
theorem Table.card_clashes_heard {c : Ctx} {as : List Announcement} (h : Table c as) (call : Call) :
    (clashes (as ++ (heard call).toList)).card =
      (clashes as).card + tally kind .dups (events c call) := by
  have hpacket : ∀ d ts, call.Feeds d ts → (clashes (as ++ (heard call).toList)).card =
      (clashes as).card + tally kind .dups (events c call) := by
    intro d ts hcall
    rw [heard_of_feeds hcall, events, Call.events_of_feeds hcall, tally_dups_packet]
    by_cases hreply : IsReply d
    · rw [if_pos hreply, if_pos ⟨hreply, h.role⟩, h.conflictsOf_eq]
      exact card_clashes_concat as _
    · rw [if_neg hreply, if_neg fun hboth => hreply hboth.1, Option.toList_none, List.append_nil,
        Nat.add_zero]
  have hsilent : heard call = none → tally kind .dups (events c call) = 0 →
      (clashes (as ++ (heard call).toList)).card =
        (clashes as).card + tally kind .dups (events c call) := by
    intro hnone hzero
    rw [hnone, hzero, Option.toList_none, List.append_nil, Nat.add_zero]
  cases call with
  | feedInput d =>
      cases d with
      | none => exact hsilent rfl rfl
      | some d => exact hpacket d 0 (.inr ⟨rfl, rfl⟩)
  | feedInputWithTs d ts =>
      cases d with
      | none => exact hsilent rfl rfl
      | some d => exact hpacket d ts (.inl rfl)
  | process ts =>
      -- A timeout is none of the duplicates.
      have hnone : tally kind .dups (c.expiry timeoutEvent ts).toList = 0 := by
        rw [Probe.Ctx.expiry]
        split_ifs <;> rfl
      exact hsilent rfl hnone
  | nextEvent e => exact hsilent rfl rfl
  | getStats s => exact hsilent rfl rfl
  | reset => exact hsilent rfl rfl

/-! ## The ledger over sequences of calls -/

/-- There are places for at most 64 of the announcements. -/
theorem card_clashes_lt (as : List Announcement) : (clashes as).card < 2 ^ 32 := by
  have hle : (clashes as).card ≤ (as.take maxNeigh).length * (as.take maxNeigh).length := by
    have hprod := Finset.card_filter_le
      (Finset.range (as.take maxNeigh).length ×ˢ Finset.range (as.take maxNeigh).length)
      fun p => p.1 < p.2 ∧ RelatedAt Clash (as.take maxNeigh) p.1 p.2
    rw [Finset.card_product, Finset.card_range] at hprod
    exact hprod
  have hfew : (as.take maxNeigh).length ≤ 64 := List.length_take_le _ _
  calc
    (clashes as).card ≤ 64 * 64 := hle.trans (Nat.mul_le_mul hfew hfew)
    _ < 2 ^ 32 := by decide

/-- The step lemma. -/
theorem Ledger.step {c c' : Ctx} {as : List Announcement} {call : Call} {r : Probe.Result}
    (h : Ledger c as) (hreset : call ≠ .reset)
    (hstep : arprecon.step (some c) call = .ok (some c', r)) :
    Ledger c' (as ++ (heard call).toList) := by
  refine ⟨h.table.step hreset hstep, ?_⟩
  have hcard := h.table.card_clashes_heard call
  have hsmall := card_clashes_lt (as ++ (heard call).toList)
  have hdups : c'.dups = c.dups + UInt32.ofNat (tally kind .dups (events c call)) := by
    rcases call.plain_or with hplain | ⟨e, rfl⟩ | rfl
    · exact (booked.plain hplain hstep).counts .dups
    · cases hstep
      exact (UInt32.add_zero _).symm
    · exact absurd rfl hreset
  have hfew : tally kind .dups (events c call) < 2 ^ 32 := by omega
  -- The counter does not overflow, since there are few places to clash.
  calc
    c'.dups.toNat
        = (c.dups.toNat + (UInt32.ofNat (tally kind .dups (events c call))).toNat) % 2 ^ 32 := by
          rw [hdups, UInt32.toNat_add]
    _ = (clashes (as ++ (heard call).toList)).card % 2 ^ 32 := by
          rw [UInt32.toNat_ofNat_of_lt' hfew, h.dups, ← hcard]
    _ = (clashes (as ++ (heard call).toList)).card := Nat.mod_eq_of_lt hsmall

/-- The run lemma. -/
theorem Ledger.play {c c' : Ctx} {as : List Announcement} {calls : List Call} (h : Ledger c as)
    (hreset : .reset ∉ calls) (hplay : arprecon.play (some c) calls = .ok (some c')) :
    Ledger c' (as ++ announced calls) := by
  refine Probe.Module.play_invariant heard ?_ h hplay
  intro call hmem c as c' r h hstep
  exact h.step (fun heq => hreset (heq ▸ hmem)) hstep

theorem announced_concat (calls : List Call) (call : Call) :
    announced (calls ++ [call]) = announced calls ++ (heard call).toList := by
  rw [announced, List.filterMap_append, ← announced, List.filterMap_cons]
  cases heard call <;> rfl

/-- Every ARP reply that the calls feed has an Ethernet and an ARP header. -/
def OnlyComplete (calls : List Call) : Prop :=
  ∀ call ∈ calls, ∀ d ts, call.Feeds d ts → IsReply d → Complete d

theorem OnlyComplete.step {calls : List Call} (h : OnlyComplete calls) {call : Call}
    (hmem : call ∈ calls) (c : Ctx) :
    ∃ c' r, arprecon.step (some c) call = .ok (some c', r) := by
  refine Probe.Module.step_returns (fun c d ts hcall _ => ?_) c
  refine ⟨_, feedBody_eq (fun _ hreply => ?_) ts⟩
  have hlen := (h call hmem d ts hcall hreply).2
  exact ⟨by omega, fun _ => by omega⟩

theorem OnlyComplete.of_prefix {calls before : List Call} (h : OnlyComplete calls)
    (hpre : before <+: calls) : OnlyComplete before :=
  fun call hmem => h call (hpre.subset hmem)

/-- Whatever calls, without a reset, are made on a requester's context that is new or was reset, if
the ARP replies among them are complete: the calls return, the table holds the first 64 senders,
the duplicates are the pairs of them with one address and two MACs, and a packet makes a spoof
event exactly if its reply is the second of such a pair. -/
theorem neighbours_and_duplicates (r : RawRing Event maxQ) (sendTs : UInt64) (own : Own)
    (size : Nat) {calls : List Call} (hreset : .reset ∉ calls) (hcomplete : OnlyComplete calls) :
    (∃ c, arprecon.play (some (arprecon.qinit .requester r sendTs own size)) calls =
        .ok (some c) ∧
      c.own.neighCount = min (announced calls).length 64 ∧
      (∀ i : Fin maxNeigh, i.1 < c.own.neighCount →
        (announced calls)[i.1]? = some (c.own.neighbour i)) ∧
      (c.stats (arprecon.lossPct c)).duplicates.toNat = (clashes (announced calls)).card) ∧
    ∀ before call d ts, before ++ [call] <+: calls → call.Feeds d ts →
      ∃ c c' res, arprecon.play (some (arprecon.qinit .requester r sendTs own size)) before =
          .ok (some c) ∧
        arprecon.step (some c) call = .ok (some c', res) ∧
        Books kind c c' (packetEvents c d ts) ∧
        ((∃ e ∈ packetEvents c d ts, e.type = .arpSpoof) ↔
          ∃ i, (i, (announced before).length) ∈ clashes (announced (before ++ [call]))) := by
  have hreach : ∀ before, before <+: calls → ∃ c,
      arprecon.play (some (arprecon.qinit .requester r sendTs own size)) before =
        .ok (some c) ∧ Ledger c (announced before) := by
    intro before hpre
    rcases Probe.Module.play_returns
      (fun call hmem => (hcomplete.of_prefix hpre).step hmem) _ with ⟨c, hplay⟩
    have hno : .reset ∉ before := fun hmem => hreset (hpre.subset hmem)
    exact ⟨c, hplay, (Ledger.qinit r sendTs own size).play hno hplay⟩
  constructor
  · rcases hreach calls List.prefix_rfl with ⟨c, hplay, hledger⟩
    exact ⟨c, hplay, hledger.table.count, hledger.table.entry, hledger.dups⟩
  · intro before call d ts hpre hcall
    have hmem : call ∈ calls := hpre.subset (by simp)
    rcases hreach before ((List.prefix_append before [call]).trans hpre) with
      ⟨c, hplay, hledger⟩
    rcases hcomplete.step hmem c with ⟨c', res, hstep⟩
    have hevents : events c call = packetEvents c d ts := Call.events_of_feeds hcall
    have hbooks : Books kind c c' (events c call) :=
      booked.plain (Probe.Call.plain_of_feeds hcall) hstep
    rw [hevents] at hbooks
    refine ⟨c, c', res, hplay, hstep, hbooks, ?_⟩
    rw [announced_concat, heard_of_feeds hcall]
    exact hledger.table.exists_spoof_iff d ts

/-- Two replies for one address from different MACs. -/
theorem neighbours_and_duplicates_two :
    ∃ c, arprecon.play (some (arprecon.create .requester))
        [.feedInput (some (replyFrom 0)), .feedInput (some (replyFrom 1))] = .ok (some c) ∧
      c.own.neighCount = 2 ∧ (c.stats (arprecon.lossPct c)).duplicates.toNat = 1 := by
  have hcomplete : OnlyComplete
      [.feedInput (some (replyFrom 0)), .feedInput (some (replyFrom 1))] := by
    intro call hcall d ts hfeeds _
    simp only [List.mem_cons, List.not_mem_nil, or_false] at hcall
    rcases hcall with rfl | rfl
    · rcases hfeeds with hfed | ⟨hfed, _⟩ <;> cases hfed
      decide
    · rcases hfeeds with hfed | ⟨hfed, _⟩ <;> cases hfed
      decide
  rcases (neighbours_and_duplicates _ _ _ _ (by simp) hcomplete).1 with
    ⟨c, hplay, hcount, _, hdups⟩
  exact ⟨c, hplay, hcount, hdups.trans (by decide)⟩

end Arprecon
end Netdiag
