import Netdiag.Probe.Listener
import Netdiag.Probe.Neighbours

/-!
# Hearing — the requesters of the probe modules are listeners

For each module `hear` says which events a requester makes of a packet: all that it knows of a probe
is that it was answered.  Only arprecon looks back, at the senders of earlier replies.  No caller
can tell a requester from a listener with these ears, whatever calls are made
(`requester_is_listener`), and so no caller learns anything from it by the times that it hands over
(`requesters_have_no_clock`).
-/

namespace Netdiag
namespace Probe

open Lib

variable {X : Type}

/-! ## Reads behind a packet -/

theorem memcpy_behind {d : List UInt8} {i n : Nat} (hi : i ≤ d.length) (h : d.length < i + n) :
    memcpy d i n = .error (.outOfBounds d.length) := by
  rw [memcpy, if_neg (Nat.not_le_of_lt h), Nat.max_eq_right hi]

theorem rd32Be_behind {d : List UInt8} {i : Nat} (hi : i ≤ d.length) (h : d.length < i + 4) :
    rd32Be d i = .error (.outOfBounds d.length) := by
  rw [rd32Be]
  -- The reads go from left to right: the first byte that is lacking is the one that fails.
  rcases (by omega : d.length = i ∨ d.length = i + 1 ∨ d.length = i + 2 ∨ d.length = i + 3) with
    hend | hend | hend | hend
  · rw [rd_of_le (by omega : d.length ≤ i), hend]
    rfl
  · rw [rd_of_lt (by omega : i + 1 ≤ d.length), rd_of_le (by omega : d.length ≤ i + 1), hend]
    rfl
  · rw [rd_of_lt (by omega : i + 1 ≤ d.length), rd_of_lt (by omega : i + 1 + 1 ≤ d.length),
      rd_of_le (by omega : d.length ≤ i + 2), hend]
    rfl
  · rw [rd_of_lt (by omega : i + 1 ≤ d.length), rd_of_lt (by omega : i + 1 + 1 ≤ d.length),
      rd_of_lt (by omega : i + 2 + 1 ≤ d.length), rd_of_le (by omega : d.length ≤ i + 3), hend]
    rfl

/-! ## The modules -/

/-- What the contexts of requesters keep that measure from a probe. -/
structure Ctx.Untimed (c : Ctx X) : Prop where
  role : c.role = .requester
  waiting : c.waiting = false
  sendTs : c.sendTs = 0

theorem Ctx.Untimed.latency {c : Ctx X} (h : c.Untimed) (ts : UInt64) : c.latency ts = 5 :=
  latency_of_untimed h.sendTs ts

theorem not_expired {c : Ctx X} (h : c.waiting = false) (ts : UInt64) : ¬ c.Expired ts := by
  intro hexpired
  cases h.symm.trans hexpired.1

/-- The latency that a requester reports which stamps every packet. -/
def stamped (timed : Bool) : UInt32 :=
  if timed then 0 else 5

theorem latency_stamp_eq (c : Ctx X) (ts : UInt64) :
    (c.stamp ts).latency ts = stamped (ts ≠ 0) := by
  rw [latency_stamp, stamped]
  simp only [decide_eq_true_eq]

theorem role_reply (c : Ctx X) (ev : Event) (ts : UInt64) : (c.reply ev ts).role = c.role :=
  c.toQueueCtx.role_pushAll [{ ev with latencyMs := c.latency ts }]

theorem role_timeout (c : Ctx X) (ev : Event) : (c.timeout ev).role = c.role :=
  c.toQueueCtx.role_pushAll [ev]

theorem Ctx.Untimed.reply {c : Ctx X} (h : c.Untimed) (ev : Event) (ts : UInt64) :
    (c.reply ev ts).Untimed :=
  ⟨(role_reply c ev ts).trans h.role, rfl, h.sendTs⟩

/-- The loss percentage, in words. -/
def loss (replies timeouts : UInt32) : UInt32 :=
  if replies + timeouts ≠ 0 then (timeouts * 100) / (replies + timeouts) else 0

end Probe

open Lib
open Probe (Call Ear Event)

namespace Ping

def hear (d : List UInt8) : List Event :=
  if IsEchoReply d then
    [{ type := .pingReply, seq := (be16At d 6).toUInt32, latencyMs := 5 }]
  else []

def ear : Ear where
  minLen := 8
  hear _ d _ := some (hear d)
  kind := kind
  lossPct := Probe.loss

theorem untimed_fed {c : Ctx} (h : c.Untimed) (d : List UInt8) (ts : UInt64) :
    (fed c d ts).Untimed := by
  rw [fed]
  split_ifs with hreply hrequest
  · exact h.reply _ ts
  · exact absurd (h.role.symm.trans hrequest.2) (by decide)
  · exact h

theorem hears : ping.Hears ear fun c _ => c.Untimed where
  minLen := rfl
  role h := h.role
  create _ := ⟨rfl, rfl, rfl⟩
  reset h := ⟨h.role, rfl, h.sendTs⟩
  queue _ h hrole := ⟨hrole.trans h.role, h.waiting, h.sendTs⟩
  heard := by
    rintro c ps d ts es h hlen ⟨⟩
    have hbody := feedBody_eq hlen c ts
    have hposting := posting_packet hlen hbody
    refine ⟨_, hbody, ?_, untimed_fed h d ts⟩
    rw [packetEvent] at hposting
    show Probe.Posting kind c _ (hear d)
    rw [hear]
    -- The event of the code and the one that is heard are the same in either case.
    by_cases hreply : IsEchoReply d
    · rw [if_pos ⟨hlen, hreply.2, h.role⟩, h.latency] at hposting
      rw [if_pos hreply]
      exact hposting
    · rw [if_neg fun hevent => hreply ⟨hlen, hevent.2.1⟩] at hposting
      rw [if_neg hreply]
      exact hposting
  missed h _ hes := by cases hes
  tick ts h := if_neg (Probe.not_expired h.waiting ts)
  lossPct _ := rfl

end Ping

namespace Arping

def hear (d : List UInt8) : Option (List Event) :=
  if IsArp 2 d then
    if d.length < 28 then none
    else some [{ type := .arpReply, srcMac := bytesOf 6 (d.drop 22), latencyMs := 5 }]
  else if IsNdp 136 d then
    if d.length = 71 then none
    else some [{ type := .arpReply, srcMac := advertisedMac d, latencyMs := 5 }]
  else some []

def ear : Ear where
  minLen := 14
  hear _ d _ := hear d
  kind := kind
  lossPct := Probe.loss

theorem untimed_fed {c : Ctx} (h : c.Untimed) (d : List UInt8) (ts : UInt64) :
    (fed c d ts).Untimed := by
  rw [fed]
  split_ifs with hreply hadvertised hrequest
  · exact h.reply _ ts
  · exact h.reply _ ts
  · exact absurd (h.role.symm.trans hrequest.2) (by decide)
  · exact h

theorem inBounds_of_hear {c : Ctx} {d : List UInt8} {es : List Event}
    (hes : hear d = some es) : InBounds c d := by
  refine fun _ => ⟨fun harp => ?_, fun hndp => ?_⟩
  · by_contra hshort
    rw [hear, if_pos harp, if_pos (Nat.lt_of_not_le hshort)] at hes
    cases hes
  · -- The frame has one ethertype.
    have hnot : ¬ IsArp 2 d := fun harp => not_isNdp harp.2.1 136 hndp
    rintro hlast
    rw [hear, if_neg hnot, if_pos hndp, if_pos hlast] at hes
    cases hes

/-- Where the MAC of an answer ends behind the frame, its first byte that is lacking is read. -/
theorem feedBody_behind {c : Ctx} {d : List UInt8} (hrole : c.role = .requester)
    (hshort : IsArp 2 d ∧ d.length < 28 ∨ IsNdp 136 d ∧ d.length = 71) (ts : UInt64) :
    feedBody c d ts = .error (.outOfBounds d.length) := by
  rcases hshort with ⟨⟨hop, ht₀, ht₁, htwo⟩, hshort⟩ | ⟨⟨_, ht₀, ht₁, htype⟩, hlast⟩
  · -- The packet is checked to have an opcode, and not to have the sender behind it.
    rw [feedBody, arpPart, if_pos hop, rd_of_lt (by omega : 12 + 1 ≤ d.length),
      rd_of_lt (by omega : 13 + 1 ≤ d.length), rd_of_lt (by omega : 21 + 1 ≤ d.length), ht₀, ht₁,
      htwo]
    simp only [bind, Except.bind, hrole, and_self, if_true,
      Probe.memcpy_behind (by omega : 22 ≤ d.length) (by omega : d.length < 22 + 6)]
  · -- An advertisement of 71 bytes is taken to have a MAC, which ends at byte 72.
    have hnot : d.getD 12 0 ≠ 0x08 := fun harp => absurd (ht₀.symm.trans harp) (by decide)
    rw [feedBody, arpPart_of_not_arp (by omega) hnot]
    show ndpPart c d ts = _
    rw [ndpPart, if_pos (by omega : d.length > 40), rd_of_lt (by omega : 12 + 1 ≤ d.length),
      rd_of_lt (by omega : 13 + 1 ≤ d.length), rd_of_lt (by omega : 40 + 1 ≤ d.length), ht₀, ht₁,
      htype, if_pos (by omega : d.length > 70)]
    simp only [bind, Except.bind, hrole, and_self, if_true,
      Probe.memcpy_behind (by omega : 66 ≤ d.length) (by omega : d.length < 66 + 6)]

theorem hears : arping.Hears ear fun c _ => c.Untimed where
  minLen := rfl
  role h := h.role
  create _ := ⟨rfl, rfl, rfl⟩
  reset h := ⟨h.role, rfl, h.sendTs⟩
  queue _ h hrole := ⟨hrole.trans h.role, h.waiting, h.sendTs⟩
  heard := by
    intro c ps d ts es h hlen (hes : hear d = some es)
    -- What is heard is never read behind the packet.
    have hin : InBounds c d := inBounds_of_hear hes
    have hbody := feedBody_eq hlen hin ts
    have hposting := posting_packet hlen hbody
    refine ⟨_, hbody, ?_, untimed_fed h d ts⟩
    rw [packetEvent_eq hin, h.latency] at hposting
    simp only [h.role, and_true] at hposting
    rw [hear] at hes
    split_ifs at hes hposting with harp hndp <;> cases hes <;> exact hposting
  missed := by
    intro c ps d ts h hlen (hes : hear d = none)
    refine feedBody_behind h.role ?_ ts
    rw [hear] at hes
    split_ifs at hes with harp hshort hndp hlast
    · exact .inl ⟨harp, hshort⟩
    · exact .inr ⟨hndp, hlast⟩
  tick ts h := if_neg (Probe.not_expired h.waiting ts)
  lossPct _ := rfl

end Arping

namespace Traceroute

/-- The number of the probe is not known to a requester. -/
def hear (d : List UInt8) (timed : Bool) : Option (List Event) :=
  if d.length = 20 then none
  else if IsHopReply d then some [{ type := .tracerouteHop, latencyMs := Probe.stamped timed }]
  else some []

def ear : Ear where
  minLen := 20
  hear _ d timed := hear d timed
  kind := kind
  lossPct _ _ := 0

/-- What requesters keep. -/
structure Unnumbered (c : Ctx) : Prop where
  role : c.role = .requester
  waiting : c.waiting = false
  lastSeq : c.own.lastSeq = 0

theorem unnumbered_fed {c : Ctx} (h : Unnumbered c) (d : List UInt8) (ts : UInt64) :
    Unnumbered (fed c d ts) := by
  rw [fed]
  split_ifs with hreply hprobe
  · exact ⟨(Probe.role_reply (c.stamp ts) _ ts).trans h.role, rfl,
      (lastSeq_recordHop _ _ _ _).trans h.lastSeq⟩
  · exact absurd (h.role.symm.trans hprobe.2) (by decide)
  · exact ⟨h.role, h.waiting, h.lastSeq⟩

theorem hears : traceroute.Hears ear fun c _ => Unnumbered c where
  minLen := rfl
  role h := h.role
  create _ := ⟨rfl, rfl, rfl⟩
  reset h := ⟨h.role, rfl, h.lastSeq⟩
  queue _ h hrole := ⟨hrole.trans h.role, h.waiting, h.lastSeq⟩
  heard := by
    intro c ps d ts es h hlen (hes : hear d (ts ≠ 0) = some es)
    have hend : d.length ≠ 20 := by
      rintro hend
      rw [hear, if_pos hend] at hes
      cases hes
    have htype : 21 ≤ d.length := Nat.lt_of_le_of_ne hlen (Ne.symm hend)
    -- Only a responder reads the number of a probe.
    have hin : InBounds c d := ⟨hend, fun _ hrole => by cases h.role.symm.trans hrole⟩
    have hbody := feedBody_eq hlen hin ts
    have hposting := posting_packet hlen hbody
    refine ⟨_, hbody, ?_, unnumbered_fed h d ts⟩
    rw [packetEvent, h.lastSeq, Probe.latency_stamp_eq] at hposting
    rw [hear, if_neg hend] at hes
    by_cases hreply : IsHopReply d
    · rw [if_pos ⟨htype, hreply, h.role⟩] at hposting
      rw [if_pos hreply] at hes
      cases hes
      exact hposting
    · rw [if_neg fun hevent => hreply hevent.2.1] at hposting
      rw [if_neg hreply] at hes
      cases hes
      exact hposting
  missed := by
    intro c ps d ts h hlen (hes : hear d (ts ≠ 0) = none)
    rw [hear] at hes
    split_ifs at hes with hend
    show feedBody c d ts = _
    rw [feedBody, rd_of_le (by omega : d.length ≤ 20), hend]
    rfl
  tick ts h := if_neg (Probe.not_expired h.waiting ts)
  lossPct _ := rfl

end Traceroute

namespace Dnsdiag

/-- Nor is the identifier of the query. -/
def hear (d : List UInt8) (timed : Bool) : List Event :=
  if be16At d 2 &&& 0x000F ≠ 0 then
    [{ type := .faultDetected, reason := s!"DNS rcode={be16At d 2 &&& 0x000F}" }]
  else if be16At d 2 &&& 0x8000 ≠ 0 then
    [{ type := .dnsReply, latencyMs := Probe.stamped timed }]
  else []

def ear : Ear where
  minLen := 12
  hear _ d timed := some (hear d timed)
  kind := kind
  lossPct _ _ := 0

/-- What requesters keep. -/
structure Unnumbered (c : Ctx) : Prop where
  role : c.role = .requester
  lastSeq : c.own.lastSeq = 0

theorem unnumbered_fed {c : Ctx} (h : Unnumbered c) (d : List UInt8) (ts : UInt64) :
    Unnumbered (fed c d ts) := by
  rw [fed]
  split_ifs with hfault hreply hquery
  · exact ⟨(Probe.role_timeout (c.stamp ts) _).trans h.role, h.lastSeq⟩
  · exact ⟨(Probe.role_reply (c.stamp ts) _ ts).trans h.role, h.lastSeq⟩
  · exact absurd (h.role.symm.trans hquery) (by decide)
  · exact ⟨h.role, h.lastSeq⟩

theorem hears : dnsdiag.Hears ear fun c _ => Unnumbered c where
  minLen := rfl
  role h := h.role
  create _ := ⟨rfl, rfl⟩
  reset h := ⟨h.role, h.lastSeq⟩
  queue _ h hrole := ⟨hrole.trans h.role, h.lastSeq⟩
  heard := by
    rintro c ps d ts es h hlen ⟨⟩
    have hbody := feedBody_eq hlen c ts
    have hposting := posting_packet hlen hbody
    refine ⟨_, hbody, ?_, unnumbered_fed h d ts⟩
    rw [packetEvent, if_pos ⟨hlen, h.role⟩, faultEvent, h.lastSeq, Probe.latency_stamp_eq]
      at hposting
    show Probe.Posting kind c _ (hear d (ts ≠ 0))
    rw [hear]
    split_ifs at hposting ⊢ <;> exact hposting
  missed h _ hes := by cases hes
  tick _ _ := rfl
  lossPct _ := rfl

end Dnsdiag

namespace Arprecon

/-- The senders of the replies among the packets. -/
def senders (ps : List (List UInt8)) : List Announcement :=
  ps.filterMap fun d => if IsReply d then some (announcement d) else none

/-- A reply is compared with the senders before it as long as these are fewer than 64. -/
def clashesWith (as : List Announcement) (a : Announcement) : Nat :=
  if as.length < maxNeigh then as.countP (Clash · a) else 0

def hear (ps : List (List UInt8)) (d : List UInt8) : Option (List Event) :=
  if IsReply d then
    if d.length < 28 ∨ (senders ps).length < maxNeigh ∧ d.length < 32 then none
    else some ({ type := .arpReply, srcMac := (announcement d).mac, latencyMs := 5 } ::
      List.replicate (clashesWith (senders ps) (announcement d)) spoofEvent)
  else some []

def ear : Ear where
  minLen := 14
  hear ps d _ := hear ps d
  kind := kind
  lossPct := Probe.loss

/-- What requesters keep. -/
structure Keeps (c : Ctx) (ps : List (List UInt8)) : Prop where
  untimed : c.Untimed
  table : Table c (senders ps)

theorem senders_concat (ps : List (List UInt8)) (d : List UInt8) :
    senders (ps ++ [d]) = senders ps ++ (if IsReply d then some (announcement d) else none).toList
    := by
  rw [senders, List.filterMap_append, ← senders, List.filterMap_cons]
  split_ifs <;> rfl

theorem untimed_fed {c : Ctx} (h : c.Untimed) (d : List UInt8) (ts : UInt64) :
    (fed c d ts).Untimed := by
  rw [fed]
  split_ifs with hreply hrequest
  · -- Learning an announcement posts spoof events, if anything.
    have hfirst := h.reply (replyEvent d) ts
    rw [learnt]
    split_ifs
    · exact ⟨(role_spoofed _ _).trans hfirst.role, hfirst.waiting, hfirst.sendTs⟩
    · exact hfirst
  · exact absurd (h.role.symm.trans hrequest.2) (by decide)
  · exact h

theorem Keeps.room_iff {c : Ctx} {ps : List (List UInt8)} (h : Keeps c ps) :
    c.own.neighCount < maxNeigh ↔ (senders ps).length < maxNeigh := by
  have hcount := h.table.count
  omega

theorem Keeps.inBounds {c : Ctx} {ps : List (List UInt8)} {d : List UInt8} (h : Keeps c ps)
    (hlong : IsReply d →
      ¬ (d.length < 28 ∨ (senders ps).length < maxNeigh ∧ d.length < 32)) : InBounds c d := by
  intro _ hreply
  have hlen := hlong hreply
  have hroom := h.room_iff
  exact ⟨by omega, by omega⟩

theorem Keeps.fed {c : Ctx} {ps : List (List UInt8)} {d : List UInt8} (h : Keeps c ps)
    (hlen : 14 ≤ d.length) (hin : InBounds c d) (ts : UInt64) :
    Keeps (Arprecon.fed c d ts) (ps ++ [d]) := by
  refine ⟨untimed_fed h.untimed d ts, ?_⟩
  have hfeeds : Call.Feeds (.feedInputWithTs (some d) ts) d ts := .inl rfl
  have hstep := Probe.Module.step_of_body (m := arprecon) hfeeds hlen (feedBody_eq hin ts)
  have htable := h.table.step (fun hreset => by cases hreset) hstep
  rwa [heard_of_feeds hfeeds, ← senders_concat] at htable

/-- Where a reply ends behind its opcode, its first byte that is lacking is read. -/
theorem feedBody_behind {c : Ctx} {d : List UInt8} (hrole : c.role = .requester)
    (hreply : IsReply d)
    (hshort : d.length < 28 ∨ c.own.neighCount < maxNeigh ∧ d.length < 32) (ts : UInt64) :
    feedBody c d ts = .error (.outOfBounds d.length) := by
  have hop := hreply.1
  rw [feedBody_of_reply hrole hreply]
  by_cases hmac : d.length < 28
  · -- The copy of the MAC for the event.
    rw [Probe.memcpy_behind (by omega) (by omega)]
    rfl
  · -- The bytes of the address for the table, which has room.
    rcases hshort.resolve_left hmac with ⟨hroom, hip⟩
    have hroom' : (c.reply (replyEvent d) ts).own.neighCount < maxNeigh := hroom
    rw [memcpy_of_le (by omega : 22 + 6 ≤ d.length) (by decide)]
    show learn (c.reply (replyEvent d) ts) d = _
    rw [learn, dif_pos hroom', memcpy_of_le (by omega : 22 + 6 ≤ d.length) (by decide),
      Probe.rd32Be_behind (by omega) (by omega)]
    rfl

theorem hears : arprecon.Hears ear Keeps where
  minLen := rfl
  role h := h.untimed.role
  create _ := ⟨⟨rfl, rfl, rfl⟩, .qinit _ _ _ _⟩
  reset := by
    intro c ps h
    have hrole := h.untimed.role
    refine ⟨⟨hrole, rfl, h.untimed.sendTs⟩, ?_⟩
    rw [hrole]
    exact .qinit _ _ _ _
  queue _ h hrole :=
    ⟨⟨hrole.trans h.untimed.role, h.untimed.waiting, h.untimed.sendTs⟩,
      h.table.congr hrole rfl rfl⟩
  heard := by
    intro c ps d ts es h hlen (hes : hear ps d = some es)
    -- A reply that is heard has its sender, and its address if the table has room for it.
    have hlong : IsReply d →
        ¬ (d.length < 28 ∨ (senders ps).length < maxNeigh ∧ d.length < 32) := by
      intro hreply hshort
      rw [hear, if_pos hreply, if_pos hshort] at hes
      cases hes
    have hin := h.inBounds hlong
    have hbody := feedBody_eq hin ts
    have hposting := posting_packet hbody
    refine ⟨_, hbody, ?_, h.fed hlen hin ts⟩
    rw [packetEvents, h.untimed.latency, h.table.conflictsOf_eq] at hposting
    rw [hear] at hes
    by_cases hreply : IsReply d
    · rw [if_pos ⟨hreply, h.untimed.role⟩] at hposting
      rw [if_pos hreply, if_neg (hlong hreply)] at hes
      cases hes
      exact hposting
    · rw [if_neg fun hboth => hreply hboth.1] at hposting
      rw [if_neg hreply] at hes
      cases hes
      exact hposting
  missed := by
    intro c ps d ts h _ (hes : hear ps d = none)
    rw [hear] at hes
    split_ifs at hes with hreply hshort
    exact feedBody_behind h.untimed.role hreply
      (hshort.imp_right fun hboth => ⟨h.room_iff.2 hboth.1, hboth.2⟩) ts
  tick ts h := if_neg (Probe.not_expired h.untimed.waiting ts)
  lossPct _ := rfl

end Arprecon

/-! ## All modules -/

namespace Probe

variable {X : Type}

/-- No caller can tell the module's requesters from listeners, whatever calls are made. -/
def Module.Listens (m : Module X) (E : Ear) : Prop :=
  ∀ config calls, observe m.step (some (m.createWithConfig .requester config)) calls =
    observe (Listener.step E) (.new (config.elim 8 Config.eventQueueSize)) calls

/-- Calls that hand over nothing but times, and packets that make no event, change nothing in what
the other calls return. -/
def Module.HearsNothingElse (m : Module X) (E : Ear) : Prop :=
  ∀ config calls,
    observeOf (Call.tells E) m.step (some (m.createWithConfig .requester config)) calls =
      observe m.step (some (m.createWithConfig .requester config)) (calls.filter (Call.tells E))

/-- No caller gets anything else from the module's requesters by other times. -/
def Module.HasNoClock (m : Module X) : Prop :=
  ∀ config calls, observe m.step (some (m.createWithConfig .requester config)) calls =
    observe m.step (some (m.createWithConfig .requester config)) (calls.map Call.untimed)

theorem Module.Hears.listens {m : Module X} {E : Ear} {I : Ctx X → List (List UInt8) → Prop}
    (h : m.Hears E I) : m.Listens E :=
  fun config calls => h.observe_eq config calls

theorem Module.Listens.hasNoClock {m : Module X} {E : Ear} (h : m.Listens E) : m.HasNoClock := by
  intro config calls
  rw [h, h]
  refine observe_eq_observe_map (R := Eq) ?_ rfl
  rintro call _ v _ rfl
  rw [Listener.step_untimed]
  exact .refl (fun _ => ⟨rfl, rfl⟩) _

theorem Module.Hears.hearsNothingElse {m : Module X} {E : Ear}
    {I : Ctx X → List (List UInt8) → Prop} (h : m.Hears E I) (hE : E.Steady) :
    m.HearsNothingElse E := by
  intro config calls
  rw [h.observeOf_eq, Listener.observeOf_tells hE, h.observe_eq]

/-- A module that does not look back. -/
theorem steady_of_forgetful {E : Ear} (h : ∀ ps d timed, E.hear ps d timed = E.hear [] d timed) :
    E.Steady where
  quiet hnone ps := (h ps _ _).trans hnone
  forgets _ ps qs _ _ := (h _ _ _).trans (h (ps ++ qs) _ _).symm

end Probe

theorem Arprecon.steady : Arprecon.ear.Steady := by
  have hreply : ∀ {ps d}, Arprecon.hear ps d = some [] → ¬ Arprecon.IsReply d := by
    intro ps d hnone hreply
    rw [Arprecon.hear, if_pos hreply] at hnone
    split_ifs at hnone
    cases hnone
  refine ⟨fun hnone ps => if_neg (hreply hnone), fun {d _} hnone ps qs d' _ => ?_⟩
  -- A packet that is not a reply has no sender to be remembered.
  have hsame : Arprecon.senders (ps ++ d :: qs) = Arprecon.senders (ps ++ qs) := by
    rw [← List.singleton_append, ← List.append_assoc, Arprecon.senders, List.filterMap_append,
      ← Arprecon.senders, Arprecon.senders_concat, if_neg (hreply hnone), Option.toList_none,
      List.append_nil, Arprecon.senders, ← List.filterMap_append]
    rfl
  show Arprecon.hear _ d' = Arprecon.hear _ d'
  rw [Arprecon.hear, Arprecon.hear, hsame]

open Ping (ping)
open Arping (arping)
open Traceroute (traceroute)
open Dnsdiag (dnsdiag)
open Arprecon (arprecon)

/-- The requesters of all five modules are listeners. -/
theorem requester_is_listener :
    ping.Listens Ping.ear ∧ arping.Listens Arping.ear ∧ traceroute.Listens Traceroute.ear ∧
    dnsdiag.Listens Dnsdiag.ear ∧ arprecon.Listens Arprecon.ear :=
  ⟨Ping.hears.listens, Arping.hears.listens, Traceroute.hears.listens, Dnsdiag.hears.listens,
    Arprecon.hears.listens⟩

/-- For requesters of all five modules, packets that make no event and the news of times can be
left out of a run: the other calls return what they return without them. -/
theorem requesters_hear_nothing_else :
    ping.HearsNothingElse Ping.ear ∧ arping.HearsNothingElse Arping.ear ∧
    traceroute.HearsNothingElse Traceroute.ear ∧ dnsdiag.HearsNothingElse Dnsdiag.ear ∧
    arprecon.HearsNothingElse Arprecon.ear :=
  ⟨Ping.hears.hearsNothingElse (Probe.steady_of_forgetful fun _ _ _ => rfl),
    Arping.hears.hearsNothingElse (Probe.steady_of_forgetful fun _ _ _ => rfl),
    Traceroute.hears.hearsNothingElse (Probe.steady_of_forgetful fun _ _ _ => rfl),
    Dnsdiag.hears.hearsNothingElse (Probe.steady_of_forgetful fun _ _ _ => rfl),
    Arprecon.hears.hearsNothingElse Arprecon.steady⟩

/-- For requesters of all five modules, all times that are handed over can be replaced by one, in
packets and in the news of times: every call returns what it did. -/
theorem requesters_have_no_clock :
    ping.HasNoClock ∧ arping.HasNoClock ∧ traceroute.HasNoClock ∧ dnsdiag.HasNoClock ∧
    arprecon.HasNoClock :=
  ⟨Ping.hears.listens.hasNoClock, Arping.hears.listens.hasNoClock,
    Traceroute.hears.listens.hasNoClock, Dnsdiag.hears.listens.hasNoClock,
    Arprecon.hears.listens.hasNoClock⟩

end Netdiag
