import Netdiag.Probe.Arprecon

/-!
# Spoof — which conflicts the neighbour table of arprecon detects

The decisions on arprecon ask for an event if one address is announced with several MACs.  The
loop that compares a reply with the neighbours stands inside the test for a free slot of the table,
where its indentation does not put it: after 64 replies since the last reset no conflict is
detected any more (`Arprecon.spoof_detected_iff`).
-/

namespace Netdiag
namespace Arprecon

open Lib
open Probe (Role Event EventType Call)

/-! ## Replies and what they announce -/

/-- An ARP frame with opcode 2, up to the opcode. -/
def IsReply (d : List UInt8) : Prop :=
  21 < d.length ∧ d.getD 12 0 = 0x08 ∧ d.getD 13 0 = 0x06 ∧ be16At d 20 = 2

instance (d : List UInt8) : Decidable (IsReply d) :=
  inferInstanceAs (Decidable (_ ∧ _))

/-- A reply that is long enough for an Ethernet and an ARP header. -/
def Complete (d : List UInt8) : Prop :=
  IsReply d ∧ 42 ≤ d.length

instance (d : List UInt8) : Decidable (Complete d) :=
  inferInstanceAs (Decidable (_ ∧ _))

/-- The sender of a reply. -/
structure Announcement where
  ip : UInt32
  mac : Vector UInt8 6
  deriving DecidableEq, Repr

def announcement (d : List UInt8) : Announcement where
  ip := be32At d 28
  mac := bytesOf 6 (d.drop 22)

def heard : Call → Option Announcement
  | .feedInput (some d) => if IsReply d then some (announcement d) else none
  | .feedInputWithTs (some d) _ => if IsReply d then some (announcement d) else none
  | _ => none

/-- What the replies among the calls announce. -/
def announced (calls : List Call) : List Announcement :=
  calls.filterMap heard

/-- One of the announcements has the same address with another MAC. -/
def Conflicts (as : List Announcement) (a : Announcement) : Prop :=
  ∃ b ∈ as, b.ip = a.ip ∧ b.mac ≠ a.mac

/-- A call has queued a spoof event, and the statistics have more duplicates. -/
def Detects (c c' : Ctx) : Prop :=
  (∃ e ∈ c'.queued, e.type = .arpSpoof) ∧
    (c.stats c.lossPct).duplicates < (c'.stats c'.lossPct).duplicates

theorem heard_of_feeds {call : Call} {d : List UInt8} {ts : UInt64} (h : call.Feeds d ts) :
    heard call = if IsReply d then some (announcement d) else none := by
  rcases h with rfl | ⟨rfl, _⟩ <;> rfl

/-! ## The code on replies -/

/-- The event that a reply makes in any case. -/
def replyEvent (d : List UInt8) : Event :=
  { type := .arpReply, srcMac := (announcement d).mac }

theorem feedBody_of_reply {c : Ctx} {d : List UInt8} (hrole : c.role = .requester)
    (hreply : IsReply d) (ts : UInt64) :
    feedBody c d ts = memcpy d 22 6 >>= fun mac =>
      learn (c.reply { type := .arpReply, srcMac := mac } ts) d := by
  rcases hreply with ⟨hlen, ht₀, ht₁, hop⟩
  rw [feedBody, arpBody, if_pos hlen, rd_of_lt (by omega : 12 + 1 ≤ d.length),
    rd_of_lt (by omega : 13 + 1 ≤ d.length), rd16Be_of_le (by omega : 20 + 2 ≤ d.length), ht₀, ht₁,
    hop]
  simp only [bind, Except.bind, hrole, and_self, if_true]

theorem feedBody_of_not_reply {c : Ctx} {d : List UInt8} (hrole : c.role = .requester)
    (hreply : ¬ IsReply d) (ts : UInt64) : feedBody c d ts = .ok c := by
  rw [feedBody, arpBody]
  by_cases hlen : d.length > 21
  · rw [if_pos hlen, rd_of_lt (by omega : 12 + 1 ≤ d.length),
      rd_of_lt (by omega : 13 + 1 ≤ d.length), rd16Be_of_le (by omega : 20 + 2 ≤ d.length)]
    by_cases htype : d.getD 12 0 = 0x08 ∧ d.getD 13 0 = 0x06
    · have hop : be16At d 20 ≠ 2 := fun hop => hreply ⟨hlen, htype.1, htype.2, hop⟩
      simp only [bind, Except.bind, pure, Except.pure, htype, and_self, if_true, hop, false_and,
        if_false, hrole, reduceCtorEq, and_false]
    · simp only [bind, Except.bind, pure, Except.pure, if_neg htype]
  · rw [if_neg hlen]
    rfl

/-- The table with the sender of a reply, and the loop over the slots before. -/
theorem learn_of_room {c : Ctx} {d : List UInt8} (hroom : c.own.neighCount < maxNeigh)
    (hlen : 32 ≤ d.length) :
    learn c d = .ok ((slotsBelow c.own.neighCount c.own.neighCount_le).foldl
      (spoofStep (announcement d).ip (announcement d).mac)
      { c with own := c.own.add (announcement d).mac (announcement d).ip hroom }) := by
  rw [learn, dif_pos hroom, memcpy_of_le (by omega : 22 + 6 ≤ d.length) (by decide),
    rd32Be_of_le (by omega : 28 + 4 ≤ d.length)]
  rfl

theorem learn_of_full {c : Ctx} {d : List UInt8} (hfull : ¬ c.own.neighCount < maxNeigh) :
    learn c d = .ok c := by
  rw [learn, dif_neg hfull]
  rfl

/-- The address is read only if it is there. -/
theorem length_of_learn {c c' : Ctx} {d : List UInt8} (hroom : c.own.neighCount < maxNeigh)
    (h : learn c d = .ok c') : 32 ≤ d.length := by
  have hread : OkAll (fun _ => 32 ≤ d.length) (rd32Be d 28) := by
    refine OkAll.bind _ fun b₀ => OkAll.bind _ fun b₁ => OkAll.bind _ fun b₂ => ?_
    refine OkAll.bind_of (P := fun _ => 32 ≤ d.length) ?_ fun b₃ hlen => .ok hlen
    intro b₃ hb₃
    by_contra hshort
    rw [rd, List.getElem?_eq_none (by omega)] at hb₃
    cases hb₃
  refine (?_ : OkAll (fun _ => 32 ≤ d.length) (learn c d)) c' h
  rw [learn, dif_pos hroom]
  exact OkAll.bind _ fun mac => OkAll.bind_of hread fun ip hlen => .ok hlen

/-- The context after `n` conflicts, with an event and a duplicate for each. -/
def spoofed (c : Ctx) (n : Nat) : Ctx :=
  { c with
      toQueueCtx := c.toQueueCtx.pushAll (List.replicate n spoofEvent)
      dups := c.dups + UInt32.ofNat n }

@[simp] theorem role_spoofed (c : Ctx) (n : Nat) : (spoofed c n).role = c.role :=
  QueueCtx.role_pushAll c.toQueueCtx _

@[simp] theorem own_spoofed (c : Ctx) (n : Nat) : (spoofed c n).own = c.own := rfl

@[simp] theorem dups_spoofed (c : Ctx) (n : Nat) :
    (spoofed c n).dups = c.dups + UInt32.ofNat n := rfl

theorem spoofed_zero (c : Ctx) : spoofed c 0 = c := by
  have hdups : c.dups + UInt32.ofNat 0 = c.dups := UInt32.add_zero c.dups
  rw [spoofed, hdups]
  rfl

theorem spoofed_succ (c : Ctx) (n : Nat) :
    spoofed { c.qpush spoofEvent with dups := c.dups + 1 } n = spoofed c (n + 1) := by
  have hdups : c.dups + 1 + UInt32.ofNat n = c.dups + UInt32.ofNat (n + 1) := by
    rw [UInt32.ofNat_add, UInt32.add_comm (UInt32.ofNat n), UInt32.add_assoc]
    rfl
  rw [spoofed, spoofed, hdups]
  rfl

/-- How many of the slots conflict with a reply. -/
def Own.conflicts (o : Own) (slots : List (Fin maxNeigh)) (a : Announcement) : Nat :=
  slots.countP fun i => o.Conflicts i a.ip a.mac

theorem foldl_spoofStep (a : Announcement) (slots : List (Fin maxNeigh)) (c : Ctx) :
    slots.foldl (spoofStep a.ip a.mac) c = spoofed c (c.own.conflicts slots a) := by
  induction slots generalizing c with
  | nil => exact (spoofed_zero c).symm
  | cons i slots ih =>
      rw [List.foldl_cons, ih, spoofStep, Own.conflicts, Own.conflicts, List.countP_cons]
      by_cases hconflict : c.own.Conflicts i a.ip a.mac
      · simp only [hconflict, decide_true, if_true]
        exact spoofed_succ c _
      · simp only [hconflict, decide_false, Bool.false_eq_true, if_false, Nat.add_zero]

/-- A reply while there is room: the sender is added and compared with those before. -/
theorem learn_eq {c : Ctx} {d : List UInt8} (hroom : c.own.neighCount < maxNeigh)
    (hlen : 32 ≤ d.length) :
    learn c d = .ok (spoofed
      { c with own := c.own.add (announcement d).mac (announcement d).ip hroom }
      (c.own.conflicts (slotsBelow c.own.neighCount c.own.neighCount_le) (announcement d))) := by
  rw [learn_of_room hroom hlen, foldl_spoofStep]
  -- The slots in front of the new one are what they were.
  congr 2
  refine List.countP_congr fun i hi => ?_
  have hbelow := mem_slotsBelow hi
  have hold : c.own.neighCount ≠ i.1 := by omega
  rw [decide_eq_true_iff, decide_eq_true_iff]
  simp only [Own.Conflicts, Own.add, Fin.getElem_fin, Vector.getElem_set, if_neg hold]

/-! ## The table over sequences of calls -/

/-- The table holds the first 64 announcements since the last reset, and there are not more
duplicates than pairs of them. -/
structure Table (c : Ctx) (as : List Announcement) : Prop where
  role : c.role = .requester
  count : c.own.neighCount = min as.length maxNeigh
  entry : ∀ i : Fin maxNeigh, i.1 < c.own.neighCount →
    as[i.1]? = some ⟨c.own.neighIps[i], c.own.neighMacs[i]⟩
  dups : c.dups.toNat ≤ 64 * c.own.neighCount

theorem Table.qinit (r : RawRing Event maxQ) (sendTs : UInt64) (own : Own) (size : Nat) :
    Table (arprecon.qinit .requester r sendTs own size) [] where
  role := rfl
  count := rfl
  entry := fun _ hi => absurd hi (Nat.not_lt_zero _)
  dups := Nat.zero_le _

/-- What does not change the table and the duplicates. -/
theorem Table.congr {c c' : Ctx} {as : List Announcement} (h : Table c as)
    (hrole : c'.role = c.role) (hown : c'.own = c.own) (hdups : c'.dups = c.dups) :
    Table c' as where
  role := hrole.trans h.role
  count := by rw [hown, h.count]
  entry := by
    rw [hown]
    exact h.entry
  dups := by
    rw [hown, hdups]
    exact h.dups

/-- The conflicts that the loop finds are those with an earlier announcement. -/
theorem Table.conflicts_pos_iff {c : Ctx} {as : List Announcement} (h : Table c as)
    (hroom : c.own.neighCount < maxNeigh) (a : Announcement) :
    0 < c.own.conflicts (slotsBelow c.own.neighCount c.own.neighCount_le) a ↔ Conflicts as a := by
  have hcount : c.own.neighCount = as.length := by
    have hmin := h.count
    omega
  rw [Own.conflicts, List.countP_pos_iff]
  constructor
  · rintro ⟨i, hi, hconflict⟩
    have hentry := h.entry i (mem_slotsBelow hi)
    exact ⟨_, List.mem_of_getElem? hentry, of_decide_eq_true hconflict⟩
  · rintro ⟨b, hb, hip, hmac⟩
    rcases List.getElem?_of_mem hb with ⟨i, hi⟩
    have hlt : i < as.length := (List.getElem?_eq_some_iff.1 hi).1
    -- The announcement stands in the slot of its number.
    have hslot := h.entry ⟨i, by omega⟩ (by omega : i < c.own.neighCount)
    obtain rfl : b = ⟨_, _⟩ := Option.some.inj (hi.symm.trans hslot)
    refine ⟨⟨i, by omega⟩, ?_, decide_eq_true ⟨hip, hmac⟩⟩
    exact List.mem_map.2 ⟨⟨i, by omega⟩, List.mem_finRange _, rfl⟩

theorem conflicts_le (o : Own) (a : Announcement) :
    o.conflicts (slotsBelow o.neighCount o.neighCount_le) a ≤ o.neighCount := by
  have hle := List.countP_le_length (l := slotsBelow o.neighCount o.neighCount_le)
    (p := fun i => decide (o.Conflicts i a.ip a.mac))
  rw [length_slotsBelow] at hle
  exact hle

/-- The counter of duplicates does not overflow: it stands for fewer than 64 conflicts with each
of at most 64 replies. -/
theorem Table.toNat_dups {c : Ctx} {as : List Announcement} (h : Table c as)
    (hroom : c.own.neighCount < maxNeigh) {n : Nat} (hn : n ≤ c.own.neighCount) :
    (c.dups + UInt32.ofNat n).toNat = c.dups.toNat + n := by
  have hdups := h.dups
  have hmax : maxNeigh = 64 := rfl
  have hsmall : n < 2 ^ 32 := by omega
  rw [UInt32.toNat_add, UInt32.toNat_ofNat_of_lt' hsmall]
  omega

/-- A neighbour that is added, with the conflicts that it has. -/
theorem Table.add {c : Ctx} {as : List Announcement} (h : Table c as)
    (hroom : c.own.neighCount < maxNeigh) (a : Announcement) {n : Nat}
    (hn : n ≤ c.own.neighCount) :
    Table (spoofed { c with own := c.own.add a.mac a.ip hroom } n) (as ++ [a]) := by
  have hcount : c.own.neighCount = as.length := by
    have hmin := h.count
    omega
  refine
    { role := (role_spoofed _ _).trans h.role
      count := ?_
      entry := ?_
      dups := ?_ }
  · rw [own_spoofed, List.length_append, List.length_singleton]
    show c.own.neighCount + 1 = min (as.length + 1) maxNeigh
    omega
  · intro i hi
    rw [own_spoofed] at hi ⊢
    have hle : i.1 < c.own.neighCount + 1 := hi
    simp only [Own.add, Fin.getElem_fin, Vector.getElem_set]
    -- The slot is the new one or one of those before.
    by_cases hnew : c.own.neighCount = i.1
    · simp only [if_pos hnew]
      rw [← hnew, hcount, List.getElem?_concat_length]
    · have hold := h.entry i (by omega)
      simp only [if_neg hnew]
      rw [List.getElem?_append_left (by omega), hold]
      rfl
  · rw [dups_spoofed, own_spoofed, h.toNat_dups hroom hn]
    have hdups := h.dups
    have hmax : maxNeigh = 64 := rfl
    show c.dups.toNat + n ≤ 64 * (c.own.neighCount + 1)
    omega

/-- A reply that is fed makes its event, and is learnt if there is room. -/
theorem Table.reply {c c' : Ctx} {as : List Announcement} {d : List UInt8} {ts : UInt64}
    (h : Table c as) (hreply : IsReply d) (hbody : feedBody c d ts = .ok c') :
    Table c' (as ++ [announcement d]) := by
  -- The call has returned, so the MAC was inside the frame.
  have hmac : 22 + 6 ≤ d.length := by
    by_contra hshort
    rw [feedBody_of_reply h.role hreply, memcpy, if_neg hshort] at hbody
    cases hbody
  rw [feedBody_of_reply h.role hreply, memcpy_of_le hmac (by decide)] at hbody
  generalize hc₁ : c.reply (replyEvent d) ts = c₁
  have hlearn : learn c₁ d = .ok c' := hc₁ ▸ hbody
  have htable : Table c₁ as := hc₁ ▸ h.congr rfl rfl rfl
  by_cases hroom : c₁.own.neighCount < maxNeigh
  · rw [learn_eq hroom (length_of_learn hroom hlearn)] at hlearn
    cases hlearn
    exact htable.add hroom _ (conflicts_le _ _)
  · -- The table is full and stays as it is.
    rw [learn_of_full hroom] at hlearn
    cases hlearn
    have hcount := htable.count
    refine { htable with count := ?_, entry := ?_ }
    · rw [List.length_append]
      omega
    · intro i hi
      rw [List.getElem?_append_left (by omega)]
      exact htable.entry i hi

/-- The step lemma. -/
theorem Table.step {c c' : Ctx} {as : List Announcement} {call : Call} {r : Probe.Result}
    (h : Table c as) (hreset : call ≠ .reset)
    (hstep : arprecon.step (some c) call = .ok (some c', r)) :
    Table c' (as ++ (heard call).toList) := by
  rcases Probe.Module.step_transition hstep with ⟨c'', hptr, htrans⟩
  obtain rfl : c' = c'' := Option.some.inj hptr
  have hsilent : heard call = none → Table c' as → Table c' (as ++ (heard call).toList) := by
    intro hnone htable
    rw [hnone, Option.toList_none, List.append_nil]
    exact htable
  cases htrans with
  | @fed d ts _ hcall _ hbody =>
      -- A packet that is a reply is heard and learnt, any other changes nothing for a requester.
      rw [heard_of_feeds hcall]
      by_cases hreply : IsReply d
      · rw [if_pos hreply]
        exact h.reply hreply hbody
      · have hsame : feedBody c d ts = .ok c' := hbody
        rw [feedBody_of_not_reply h.role hreply] at hsame
        cases hsame
        rw [if_neg hreply, Option.toList_none, List.append_nil]
        exact h
  | @short d ts hcall hshort =>
      refine hsilent ?_ h
      rw [heard_of_feeds hcall]
      exact if_neg fun hreply => by
        have hlong := hreply.1
        have hmin : arprecon.minLen = 14 := rfl
        omega
  | @ticked ts hcall =>
      subst hcall
      refine hsilent rfl ?_
      show Table (processBody c ts) as
      rw [processBody]
      split_ifs
      · exact h.congr rfl rfl rfl
      · exact h
  | popped hcall hpop =>
      subst hcall
      exact hsilent rfl (h.congr (Probe.Module.role_of_pop hpop) rfl rfl)
  | looked hcall =>
      subst hcall
      exact hsilent rfl h
  | null hcall =>
      refine hsilent ?_ h
      rcases hcall with rfl | ⟨_, rfl⟩ | rfl | rfl <;> rfl
  | cleared hcall => exact absurd hcall hreset

/-- The run lemma. -/
theorem Table.play {c c' : Ctx} {as : List Announcement} {calls : List Call} (h : Table c as)
    (hreset : .reset ∉ calls) (hplay : arprecon.play (some c) calls = .ok (some c')) :
    Table c' (as ++ announced calls) := by
  refine Probe.Module.play_invariant heard ?_ h hplay
  intro call hmem c as c' r h hstep
  exact h.step (fun heq => hreset (heq ▸ hmem)) hstep

/-! ## What is detected -/

/-- The public function on a complete reply. -/
theorem step_of_body {c c' : Ctx} {call : Call} {d : List UInt8} {ts : UInt64}
    (hcall : call.Feeds d ts) (hd : Complete d) (hbody : feedBody c d ts = .ok c') :
    arprecon.step (some c) call = .ok (some c', .code 0) := by
  have hmin : arprecon.minLen ≤ d.length := (by decide : 14 ≤ 42).trans hd.2
  exact Probe.Module.step_of_body hcall hmin hbody

/-- A reply that finds the queue empty makes its event, and then the spoof events. -/
theorem detects_spoofed_iff (c c₁ : Ctx) {e : Event} {n : Nat} (hqueue : c₁.queued = [e])
    (hqsz : 2 ≤ c₁.qsz) (hsame : c₁.dups = c.dups)
    (hdups : (c.dups + UInt32.ofNat n).toNat = c.dups.toNat + n) :
    Detects c (spoofed c₁ n) ↔ 0 < n := by
  have hfree : c₁.free = c₁.qsz - 1 := by rw [QueueCtx.free, hqueue, List.length_singleton]
  have hevents : (spoofed c₁ n).queued = e :: List.replicate (min (c₁.qsz - 1) n) spoofEvent := by
    show (c₁.toQueueCtx.pushAll _).queued = _
    rw [QueueCtx.queued_pushAll, hqueue, hfree, List.take_replicate]
    rfl
  have hmore : c.dups < (spoofed c₁ n).dups ↔ 0 < n := by
    rw [dups_spoofed, hsame, UInt32.lt_iff_toNat_lt, hdups]
    omega
  constructor
  · exact fun h => hmore.1 h.2
  · intro hpos
    refine ⟨⟨spoofEvent, ?_, rfl⟩, hmore.2 hpos⟩
    -- There is room for at least one of the spoof events.
    rw [hevents]
    refine List.mem_cons_of_mem _ (List.mem_replicate.2 ⟨?_, rfl⟩)
    omega

theorem queued_reply {c : Ctx} (hempty : c.queued = []) (ev : Event) (ts : UInt64) :
    (c.reply ev ts).queued = [{ ev with latencyMs := c.latency ts }] :=
  QueueCtx.queued_pushAll_of_nil hempty [_] c.qsz_pos

/-- What a complete reply does that finds the queue empty: it makes its event, and then one more
for each conflict, while there is room in the table. -/
theorem Table.feed {c : Ctx} {as : List Announcement} (h : Table c as) (hempty : c.queued = [])
    {d : List UInt8} (hd : Complete d) (ts : UInt64) :
    ∃ c₁ e n, feedBody c d ts = .ok (spoofed c₁ n) ∧ c₁.queued = [e] ∧ c₁.qsz = c.qsz ∧
      c₁.dups = c.dups ∧ (c.dups + UInt32.ofNat n).toNat = c.dups.toNat + n ∧
      (0 < n ↔ Conflicts as (announcement d) ∧ as.length < maxNeigh) := by
  have hlen := hd.2
  rw [feedBody_of_reply h.role hd.1, memcpy_of_le (by omega : 22 + 6 ≤ d.length) (by decide)]
  show ∃ c₁ e n, learn (c.reply (replyEvent d) ts) d = _ ∧ _
  have hqueue := queued_reply hempty (replyEvent d) ts
  have hqsz' : (c.reply (replyEvent d) ts).qsz = c.qsz := QueueCtx.qsz_pushAll c.toQueueCtx [_]
  have hdups : (c.reply (replyEvent d) ts).dups = c.dups := rfl
  have htable : Table (c.reply (replyEvent d) ts) as := h.congr rfl rfl rfl
  -- From here on only these facts about the context with the reply matter.
  generalize c.reply (replyEvent d) ts = c₁ at hqueue hqsz' hdups htable ⊢
  have hcount := htable.count
  by_cases hroom : c₁.own.neighCount < maxNeigh
  · have hpos := htable.conflicts_pos_iff hroom (announcement d)
    have hsum := htable.toNat_dups hroom (conflicts_le c₁.own (announcement d))
    rw [hdups] at hsum
    have hfew : as.length < maxNeigh := by omega
    exact ⟨_, _, _, learn_eq hroom (by omega), hqueue, hqsz', hdups, hsum,
      hpos.trans (and_iff_left hfew).symm⟩
  · refine ⟨c₁, _, 0, ?_, hqueue, hqsz', hdups, by simp, ?_⟩
    · rw [learn_of_full hroom, spoofed_zero]
    · exact iff_of_false (Nat.lt_irrefl 0) fun hboth => by
        have hfew := hboth.2
        omega

/-- The step of a complete reply: it returns, and detects a conflict exactly if there is one and
room in the table. -/
theorem Table.detects_iff {c : Ctx} {as : List Announcement} (h : Table c as)
    (hempty : c.queued = []) (hqsz : 2 ≤ c.qsz) {call : Call} {d : List UInt8} {ts : UInt64}
    (hcall : call.Feeds d ts) (hd : Complete d) :
    ∃ c', arprecon.step (some c) call = .ok (some c', .code 0) ∧
      (Detects c c' ↔ Conflicts as (announcement d) ∧ as.length < maxNeigh) := by
  rcases h.feed hempty hd ts with ⟨c₁, e, n, hbody, hqueue, hqsz', hdups, hsum, hpos⟩
  refine ⟨spoofed c₁ n, step_of_body hcall hd hbody, ?_⟩
  exact (detects_spoofed_iff c c₁ hqueue (hqsz' ▸ hqsz) hdups hsum).trans hpos

/-- Whatever calls, without a reset, have been made on a requester's context that is new or was
reset: a complete reply that finds the queue drained and conflicts with one of the replies before
is detected exactly if there were fewer than 64 of them. -/
theorem spoof_detected_iff (r : RawRing Event maxQ) (sendTs : UInt64) (own : Own) (size : Nat)
    {calls : List Call} (hreset : .reset ∉ calls) {c : Ctx}
    (hplay : arprecon.play (some (arprecon.qinit .requester r sendTs own size)) calls =
      .ok (some c))
    (hdrained : c.queued = []) (hqsz : 2 ≤ c.qsz) {call : Call} {d : List UInt8} {ts : UInt64}
    (hcall : call.Feeds d ts) (hd : Complete d)
    (hconflict : Conflicts (announced calls) (announcement d)) :
    ∃ c', arprecon.step (some c) call = .ok (some c', .code 0) ∧
      (Detects c c' ↔ (announced calls).length < 64) := by
  have htable := (Table.qinit r sendTs own size).play hreset hplay
  rcases htable.detects_iff hdrained hqsz hcall hd with ⟨c', hstep, hdetects⟩
  exact ⟨c', hstep, hdetects.trans (and_iff_right hconflict)⟩

/-- An ARP reply that announces the address `0.0.0.0` with this MAC. -/
def replyFrom (last : UInt8) : List UInt8 :=
  List.replicate 12 0 ++ [8, 6, 0, 1, 8, 0, 6, 4, 0, 2, 0, 0, 0, 0, 0, last] ++ List.replicate 14 0

/-- The same reply twice, drained in between, and then one with another MAC. -/
theorem spoof_detected_third :
    ∃ c c', arprecon.step (some c) (.feedInput (some (replyFrom 1))) = .ok (some c', .code 0) ∧
      (Detects c c' ↔ 2 < 64) := by
  have hplay : ∃ c, arprecon.play (some (arprecon.create .requester))
      [.feedInput (some (replyFrom 0)), .nextEvent (some {}),
        .feedInput (some (replyFrom 0)), .nextEvent (some {})] = .ok (some c) ∧
      c.queued = [] ∧ 2 ≤ c.qsz := ⟨_, rfl, by decide, by decide⟩
  have hfeeds : Call.Feeds (.feedInput (some (replyFrom 1))) (replyFrom 1) 0 := .inr ⟨rfl, rfl⟩
  have hcomplete : Complete (replyFrom 1) := by decide
  have hconflict : Conflicts [announcement (replyFrom 0), announcement (replyFrom 0)]
      (announcement (replyFrom 1)) := ⟨announcement (replyFrom 0), by simp, by decide⟩
  rcases hplay with ⟨c, hplay, hdrained, hqsz⟩
  rcases spoof_detected_iff _ _ _ _ (by simp) hplay hdrained hqsz hfeeds hcomplete hconflict with
    ⟨c', hstep, hdetects⟩
  exact ⟨c, c', hstep, hdetects⟩

/-- Feed this reply and take its event. -/
def round : List Call :=
  [.feedInput (some (replyFrom 0)), .nextEvent (some {})]

/-- A round that conflicts with nothing: the queue is drained afterwards. -/
theorem play_round {c : Ctx} {as : List Announcement} (h : Table c as) (hempty : c.queued = [])
    (hsame : ∀ b ∈ as, b = announcement (replyFrom 0)) :
    ∃ c', arprecon.play (some c) round = .ok (some c') ∧ c'.queued = [] ∧ c'.qsz = c.qsz := by
  have hcomplete : Complete (replyFrom 0) := by decide
  rcases h.feed hempty hcomplete 0 with ⟨c₁, e, n, hbody, hqueue, hqsz', _, _, hpos⟩
  have hnone : n = 0 := by
    by_contra hn
    rcases (hpos.1 (Nat.pos_of_ne_zero hn)).1 with ⟨b, hb, _, hmac⟩
    exact hmac (congrArg Announcement.mac (hsame b hb))
  rw [hnone, spoofed_zero] at hbody
  rcases QueueCtx.pop_of_cons hqueue {} with ⟨q, hpop, _, hrest, hsize⟩
  refine ⟨{ c₁ with toQueueCtx := q }, ?_, hrest, hsize.trans hqsz'⟩
  rw [round, Probe.Module.play, step_of_body (.inr ⟨rfl, rfl⟩) hcomplete hbody]
  show arprecon.play (some c₁) [.nextEvent (some {})] = _
  rw [Probe.Module.play, Probe.Module.step, Probe.Ctx.nextEvent_of_pop hpop]
  rfl

theorem announced_rounds (k : Nat) : announced (List.replicate k round).flatten =
    List.replicate k (announcement (replyFrom 0)) := by
  induction k with
  | zero => rfl
  | succ k ih =>
      rw [List.replicate_succ, List.flatten_cons, List.replicate_succ, announced,
        List.filterMap_append, ← announced, ← announced, ih]
      rfl

theorem not_reset_rounds (k : Nat) : Call.reset ∉ (List.replicate k round).flatten := by
  simp [round]

theorem play_rounds (k : Nat) :
    ∃ c, arprecon.play (some (arprecon.create .requester)) (List.replicate k round).flatten =
      .ok (some c) ∧ c.queued = [] ∧ 2 ≤ c.qsz := by
  induction k with
  | zero => exact ⟨_, rfl, by decide, by decide⟩
  | succ k ih =>
      rcases ih with ⟨c, hplay, hempty, hqsz⟩
      have htable := (Table.qinit _ _ _ _).play (not_reset_rounds k) hplay
      rw [announced_rounds, List.nil_append] at htable
      rcases play_round htable hempty fun b hb => List.eq_of_mem_replicate hb with
        ⟨c', hround, hempty', hqsz'⟩
      refine ⟨c', ?_, hempty', hqsz'.symm ▸ hqsz⟩
      rw [List.replicate_succ', List.flatten_concat, Probe.Module.play_append, hplay]
      exact hround

/-- After 64 replies, each of them drained, a reply with another MAC is not detected. -/
theorem spoof_missed :
    ∃ c c', arprecon.play (some (arprecon.create .requester)) (List.replicate 64 round).flatten =
        .ok (some c) ∧
      c.queued = [] ∧ 2 ≤ c.qsz ∧ Complete (replyFrom 1) ∧
      Conflicts (announced (List.replicate 64 round).flatten) (announcement (replyFrom 1)) ∧
      arprecon.step (some c) (.feedInput (some (replyFrom 1))) = .ok (some c', .code 0) ∧
      ¬ Detects c c' := by
  rcases play_rounds 64 with ⟨c, hplay, hempty, hqsz⟩
  have htable := (Table.qinit _ _ _ _).play (not_reset_rounds 64) hplay
  have hcomplete : Complete (replyFrom 1) := by decide
  have hconflict : Conflicts (announced (List.replicate 64 round).flatten)
      (announcement (replyFrom 1)) := by
    rw [announced_rounds]
    exact ⟨announcement (replyFrom 0), by simp, by decide⟩
  rcases htable.detects_iff hempty hqsz (.inr ⟨rfl, rfl⟩) hcomplete with ⟨c', hstep, hdetects⟩
  refine ⟨c, c', hplay, hempty, hqsz, hcomplete, hconflict, hstep, fun h => ?_⟩
  -- The table had no room for the reply.
  have hfew := (hdetects.1 h).2
  rw [announced_rounds, List.nil_append, List.length_replicate] at hfew
  exact Nat.lt_irrefl 64 hfew

end Arprecon
end Netdiag
