import Netdiag.Probe.Arping
import Netdiag.Probe.Arrays
import Netdiag.Probe.Dnsdiag
import Netdiag.Probe.Ping
import Netdiag.Probe.Spoof
import Netdiag.Probe.Traceroute

/-!
# Packets — what the modules read of a packet, and what they do with it

For each module, `InBounds` says when it stays inside the packet, and `fed` is the context that it
leaves then.  Ping and dnsdiag always stay inside; arping, arprecon and traceroute check less than
they read (`arp_reads_inside_iff`, `icmp_reads_inside_iff`).
-/

namespace Netdiag

open Lib

/-! ## Ping -/

namespace Ping

open Probe (Role Event EventType)

def IsEchoRequest (d : List UInt8) : Prop :=
  8 ≤ d.length ∧ (d.getD 0 0 = 8 ∨ d.getD 0 0 = 128)

instance (d : List UInt8) : Decidable (IsEchoRequest d) :=
  inferInstanceAs (Decidable (_ ∧ _))

def IsEchoReply (d : List UInt8) : Prop :=
  8 ≤ d.length ∧ (d.getD 0 0 = 0 ∨ d.getD 0 0 = 129)

instance (d : List UInt8) : Decidable (IsEchoReply d) :=
  inferInstanceAs (Decidable (_ ∧ _))

def fed (c : Ctx) (d : List UInt8) (ts : UInt64) : Ctx :=
  if IsEchoReply d ∧ c.role = .requester then
    c.reply { type := .pingReply, seq := (be16At d 6).toUInt32 } ts
  else if IsEchoRequest d ∧ c.role = .responder then
    { c.request ts with own := { lastSeq := (be16At d 6).toUInt32 } }
  else c

theorem feedBody_eq {d : List UInt8} (hlen : 8 ≤ d.length) (c : Ctx) (ts : UInt64) :
    feedBody c d ts = .ok (fed c d ts) := by
  rw [feedBody, fed, rd_of_lt (by omega : 0 + 1 ≤ d.length),
    rd16Be_of_le (by omega : 6 + 2 ≤ d.length)]
  simp only [bind, Except.bind, pure, Except.pure, IsEchoReply, IsEchoRequest, hlen, true_and]
  split_ifs <;> rfl

end Ping

/-! ## Dnsdiag -/

namespace Dnsdiag

open Probe (Role Event EventType)

def fed (c : Ctx) (d : List UInt8) (ts : UInt64) : Ctx :=
  if be16At d 2 &&& 0x000F ≠ 0 ∧ c.role = .requester then
    (c.stamp ts).timeout (faultEvent c (be16At d 2 &&& 0x000F))
  else if be16At d 2 &&& 0x8000 ≠ 0 ∧ c.role = .requester then
    (c.stamp ts).reply { type := .dnsReply, seq := c.own.lastSeq } ts
  else if c.role = .responder then
    { (c.stamp ts).request ts with own := { lastSeq := (be16At d 0).toUInt32 } }
  else c.stamp ts

theorem feedBody_eq {d : List UInt8} (hlen : 12 ≤ d.length) (c : Ctx) (ts : UInt64) :
    feedBody c d ts = .ok (fed c d ts) := by
  have hrole : (c.stamp ts).role = c.role := rfl
  rw [feedBody, fed, rd16Be_of_le (by omega : 2 + 2 ≤ d.length),
    rd16Be_of_le (by omega : 0 + 2 ≤ d.length)]
  simp only [bind, Except.bind, pure, Except.pure, hrole]
  split_ifs <;> rfl

end Dnsdiag

/-! ## Traceroute -/

namespace Traceroute

open Probe (Role Event EventType)

/-- A probe, up to its type. -/
def IsProbe (d : List UInt8) : Prop :=
  d.getD 20 0 = 8

instance (d : List UInt8) : Decidable (IsProbe d) :=
  inferInstanceAs (Decidable (_ = _))

/-- The answer of a hop: time exceeded, or destination unreachable. -/
def IsHopReply (d : List UInt8) : Prop :=
  d.getD 20 0 = 11 ∨ d.getD 20 0 = 3

instance (d : List UInt8) : Decidable (IsHopReply d) :=
  inferInstanceAs (Decidable (_ ∨ _))

/-- The type of the ICMP message is in the packet, and so is the sequence number that a responder
reads of a probe.  A packet of fewer than 20 bytes is not looked at. -/
def InBounds (c : Ctx) (d : List UInt8) : Prop :=
  d.length ≠ 20 ∧ (IsProbe d → c.role = .responder → 30 ≤ d.length)

instance (c : Ctx) (d : List UInt8) : Decidable (InBounds c d) :=
  inferInstanceAs (Decidable (_ ∧ _))

def fed (c : Ctx) (d : List UInt8) (ts : UInt64) : Ctx :=
  if IsHopReply d ∧ c.role = .requester then
    { (c.stamp ts).reply { type := .tracerouteHop, seq := c.own.lastSeq } ts with
      own := c.own.recordHop (hopOf c.own.lastSeq) true ((c.stamp ts).latency ts) }
  else if IsProbe d ∧ c.role = .responder then
    { (c.stamp ts).request ts with own := { c.own with lastSeq := (be16At d 28).toUInt32 } }
  else c.stamp ts

theorem feedBody_eq {c : Ctx} {d : List UInt8} (hlen : 20 ≤ d.length) (hin : InBounds c d)
    (ts : UInt64) : feedBody c d ts = .ok (fed c d ts) := by
  have htype : 20 + 1 ≤ d.length := by
    have hne := hin.1
    omega
  rw [feedBody, fed, rd_of_lt htype]
  show (if IsHopReply d ∧ c.role = .requester then _
    else if IsProbe d ∧ c.role = .responder then _ else _) = _
  split_ifs with hreply hprobe
  · rfl
  · rw [rd16Be_of_le (hin.2 hprobe.1 hprobe.2 : 28 + 2 ≤ d.length)]
    rfl
  · rfl

/-- Otherwise a byte behind the packet is read. -/
theorem feedBody_of_not_inBounds {c : Ctx} {d : List UInt8} (hlen : 20 ≤ d.length)
    (hout : ¬ InBounds c d) (ts : UInt64) : ∃ e, feedBody c d ts = .error e := by
  have hrole : (c.stamp ts).role = c.role := rfl
  rw [feedBody]
  by_cases htype : d.length = 20
  · rw [rd_of_le (by omega : d.length ≤ 20)]
    exact ⟨_, rfl⟩
  · -- The packet is a probe that ends in front of its sequence number.
    have hprobe : IsProbe d ∧ c.role = .responder ∧ d.length < 30 := by
      simpa [InBounds, htype] using hout
    rcases rd16Be_of_lt (i := 28) hprobe.2.2 with ⟨e, hseq⟩
    refine ⟨e, ?_⟩
    rw [rd_of_lt (by omega : 20 + 1 ≤ d.length), hprobe.1]
    simp +decide [bind, Except.bind, hrole, hprobe.2.1, hseq]

end Traceroute

/-! ## Arping -/

namespace Arping

open Probe (Role Event EventType)

/-- An ARP frame with this opcode, up to the opcode. -/
def IsArp (op : UInt8) (d : List UInt8) : Prop :=
  21 < d.length ∧ d.getD 12 0 = 0x08 ∧ d.getD 13 0 = 0x06 ∧ d.getD 21 0 = op

instance (op : UInt8) (d : List UInt8) : Decidable (IsArp op d) :=
  inferInstanceAs (Decidable (_ ∧ _))

/-- A frame of neighbour discovery with this type, where the module looks for it. -/
def IsNdp (type : UInt8) (d : List UInt8) : Prop :=
  40 < d.length ∧ d.getD 12 0 = 0x86 ∧ d.getD 13 0 = 0xdd ∧ d.getD 40 0 = type

instance (type : UInt8) (d : List UInt8) : Decidable (IsNdp type d) :=
  inferInstanceAs (Decidable (_ ∧ _))

/-- The sender's MAC of a reply is in the frame, and so is that of an advertisement, for which one
byte too few is asked. -/
def InBounds (c : Ctx) (d : List UInt8) : Prop :=
  c.role = .requester → (IsArp 2 d → 28 ≤ d.length) ∧ (IsNdp 136 d → d.length ≠ 71)

instance (c : Ctx) (d : List UInt8) : Decidable (InBounds c d) :=
  inferInstanceAs (Decidable (_ → _))

/-- The MAC that an advertisement is taken to have. -/
def advertisedMac (d : List UInt8) : Vector UInt8 6 :=
  if d.length > 70 then bytesOf 6 (d.drop 66) else Vector.replicate 6 0

def fed (c : Ctx) (d : List UInt8) (ts : UInt64) : Ctx :=
  if IsArp 2 d ∧ c.role = .requester then
    c.reply { type := .arpReply, srcMac := bytesOf 6 (d.drop 22) } ts
  else if IsNdp 136 d ∧ c.role = .requester then
    c.reply { type := .arpReply, srcMac := advertisedMac d } ts
  else if (IsArp 1 d ∨ IsNdp 135 d) ∧ c.role = .responder then
    c.request ts
  else c

/-- The frame has one ethertype. -/
theorem not_isNdp {d : List UInt8} (htype : d.getD 12 0 = 0x08) (type : UInt8) :
    ¬ IsNdp type d := by
  intro h
  have hsix := h.2.1
  rw [htype] at hsix
  exact absurd hsix (by decide)

theorem arpPart_eq {c : Ctx} {d : List UInt8} (hin : InBounds c d)
    (ts : UInt64) (htype : d.getD 12 0 = 0x08) : arpPart c d ts = .ok (fed c d ts) := by
  have hndp := not_isNdp htype
  rw [arpPart, fed]
  simp only [hndp, false_and, or_false, if_false]
  by_cases hlen : d.length > 21
  · rw [if_pos hlen, rd_of_lt (by omega : 12 + 1 ≤ d.length),
      rd_of_lt (by omega : 13 + 1 ≤ d.length), rd_of_lt (by omega : 21 + 1 ≤ d.length)]
    simp only [bind, Except.bind, pure, Except.pure, IsArp, hlen, true_and, and_assoc]
    split_ifs with hreply hrequest
    · have hroom := (hin hreply.2.2.2).1 ⟨hlen, hreply.1, hreply.2.1, hreply.2.2.1⟩
      rw [memcpy_of_le (hroom : 22 + 6 ≤ d.length) (by decide)]
    · rfl
    · rfl
  · rw [if_neg hlen, if_neg fun h => hlen h.1.1, if_neg fun h => hlen h.1.1]
    rfl

theorem ndpPart_eq {c : Ctx} {d : List UInt8} (hin : InBounds c d) (ts : UInt64)
    (htype : d.getD 12 0 ≠ 0x08) : ndpPart c d ts = .ok (fed c d ts) := by
  have harp : ∀ op, ¬ IsArp op d := fun op h => htype h.2.1
  rw [ndpPart, fed]
  simp only [harp, false_and, false_or, if_false]
  by_cases hlen : d.length > 40
  · rw [if_pos hlen, rd_of_lt (by omega : 12 + 1 ≤ d.length),
      rd_of_lt (by omega : 13 + 1 ≤ d.length), rd_of_lt (by omega : 40 + 1 ≤ d.length)]
    simp only [bind, Except.bind, pure, Except.pure]
    by_cases hsix : d.getD 12 0 = 0x86 ∧ d.getD 13 0 = 0xdd
    · have hndp : ∀ type, IsNdp type d ↔ d.getD 40 0 = type :=
        fun type => ⟨fun h => h.2.2.2, fun h => ⟨hlen, hsix.1, hsix.2, h⟩⟩
      simp only [hsix, and_self, if_true, hndp]
      by_cases hreply : d.getD 40 0 = 136 ∧ c.role = .requester
      · -- The MAC is read if there is room for five of its bytes, so there is for six.
        have hroom := (hin hreply.2).2 ((hndp 136).2 hreply.1)
        rw [if_pos hreply, if_pos hreply, advertisedMac]
        split_ifs with hmac
        · rw [memcpy_of_le (by omega : 66 + 6 ≤ d.length) (by decide)]
        · rfl
      · rw [if_neg hreply, if_neg hreply]
        split_ifs <;> rfl
    · have hndp : ∀ type, ¬ IsNdp type d := fun type h => hsix ⟨h.2.1, h.2.2.1⟩
      simp only [hsix, hndp, false_and, if_false]
  · have hndp : ∀ type, ¬ IsNdp type d := fun type h => hlen h.1
    simp only [hlen, hndp, false_and, if_false]
    rfl

theorem feedBody_eq {c : Ctx} {d : List UInt8} (hlen : 14 ≤ d.length) (hin : InBounds c d)
    (ts : UInt64) : feedBody c d ts = .ok (fed c d ts) := by
  rw [feedBody]
  by_cases htype : d.getD 12 0 = 0x08
  · rw [arpPart_eq hin ts htype]
    exact ndpPart_of_arp hlen htype _ ts
  · rw [arpPart_of_not_arp hlen htype]
    exact ndpPart_eq hin ts htype

/-- Otherwise bytes behind the frame are copied. -/
theorem feedBody_of_not_inBounds {c : Ctx} {d : List UInt8} (hlen : 14 ≤ d.length)
    (hout : ¬ InBounds c d) (ts : UInt64) : ∃ e, feedBody c d ts = .error e := by
  have hcases : c.role = .requester ∧
      (IsArp 2 d ∧ d.length < 28 ∨ IsNdp 136 d ∧ d.length = 71) := by
    simp only [InBounds, Classical.not_imp, not_and_or, not_le, ne_eq, not_not] at hout
    exact hout
  rcases hcases with ⟨hrole, ⟨⟨hop, ht₀, ht₁, htwo⟩, hshort⟩ | ⟨⟨_, ht₀, ht₁, htype⟩, hlast⟩⟩
  · rcases memcpy_of_lt (D := d) (i := 22) (n := 6) hshort with ⟨e, hmac⟩
    refine ⟨e, ?_⟩
    rw [feedBody, arpPart, if_pos hop, rd_of_lt (by omega : 12 + 1 ≤ d.length),
      rd_of_lt (by omega : 13 + 1 ≤ d.length), rd_of_lt (by omega : 21 + 1 ≤ d.length), ht₀, ht₁,
      htwo]
    simp only [bind, Except.bind, hrole, and_self, if_true, hmac]
  · rcases memcpy_of_lt (D := d) (i := 66) (n := 6) (by omega) with ⟨e, hmac⟩
    refine ⟨e, ?_⟩
    have hnot : d.getD 12 0 ≠ 0x08 := fun harp => absurd (ht₀.symm.trans harp) (by decide)
    rw [feedBody, arpPart_of_not_arp hlen hnot]
    show ndpPart c d ts = _
    rw [ndpPart, if_pos (by omega : d.length > 40), rd_of_lt (by omega : 12 + 1 ≤ d.length),
      rd_of_lt (by omega : 13 + 1 ≤ d.length), rd_of_lt (by omega : 40 + 1 ≤ d.length), ht₀, ht₁,
      htype, if_pos (by omega : d.length > 70)]
    simp only [bind, Except.bind, hrole, and_self, if_true, hmac]

end Arping

/-! ## Arprecon -/

namespace Arprecon

open Probe (Role Event EventType)

/-- An ARP frame with opcode 1, up to the opcode. -/
def IsRequest (d : List UInt8) : Prop :=
  21 < d.length ∧ d.getD 12 0 = 0x08 ∧ d.getD 13 0 = 0x06 ∧ be16At d 20 = 1

instance (d : List UInt8) : Decidable (IsRequest d) :=
  inferInstanceAs (Decidable (_ ∧ _))

/-- The sender's MAC of a reply is in the frame, and so is its address if it is learnt. -/
def InBounds (c : Ctx) (d : List UInt8) : Prop :=
  c.role = .requester → IsReply d →
    28 ≤ d.length ∧ (c.own.neighCount < maxNeigh → 32 ≤ d.length)

instance (c : Ctx) (d : List UInt8) : Decidable (InBounds c d) :=
  inferInstanceAs (Decidable (_ → _))

/-- The slots that hold a neighbour. -/
def Own.slots (o : Own) : List (Fin maxNeigh) :=
  slotsBelow o.neighCount o.neighCount_le

/-- What `learn` makes of the context. -/
def learnt (c : Ctx) (d : List UInt8) : Ctx :=
  if h : c.own.neighCount < maxNeigh then
    spoofed { c with own := c.own.add (announcement d).mac (announcement d).ip h }
      (c.own.conflicts c.own.slots (announcement d))
  else c

theorem learn_eq_learnt {c : Ctx} {d : List UInt8}
    (hin : c.own.neighCount < maxNeigh → 32 ≤ d.length) : learn c d = .ok (learnt c d) := by
  rw [learnt]
  split_ifs with hroom
  · exact learn_eq hroom (hin hroom)
  · exact learn_of_full hroom

def fed (c : Ctx) (d : List UInt8) (ts : UInt64) : Ctx :=
  if IsReply d ∧ c.role = .requester then
    learnt (c.reply (replyEvent d) ts) d
  else if IsRequest d ∧ c.role = .responder then
    c.request ts
  else c

theorem feedBody_eq {c : Ctx} {d : List UInt8} (hin : InBounds c d) (ts : UInt64) :
    feedBody c d ts = .ok (fed c d ts) := by
  rw [fed]
  cases hrole : c.role with
  | requester =>
      simp only [and_true, reduceCtorEq, and_false, if_false]
      by_cases hreply : IsReply d
      · have hroom := hin hrole hreply
        rw [if_pos hreply, feedBody_of_reply hrole hreply,
          memcpy_of_le (hroom.1 : 22 + 6 ≤ d.length) (by decide)]
        exact learn_eq_learnt (c := c.reply (replyEvent d) ts) hroom.2
      · rw [if_neg hreply, feedBody_of_not_reply hrole hreply]
  | responder =>
      simp only [and_true, reduceCtorEq, and_false, if_false]
      rw [feedBody, arpBody]
      by_cases hlen : d.length > 21
      · rw [if_pos hlen, rd_of_lt (by omega : 12 + 1 ≤ d.length),
          rd_of_lt (by omega : 13 + 1 ≤ d.length), rd16Be_of_le (by omega : 20 + 2 ≤ d.length)]
        simp only [bind, Except.bind, pure, Except.pure, hrole, reduceCtorEq, and_false, if_false,
          and_true]
        by_cases hrequest : IsRequest d
        · rw [if_pos hrequest, if_pos ⟨hrequest.2.1, hrequest.2.2.1⟩, if_pos hrequest.2.2.2]
        · rw [if_neg hrequest]
          split_ifs with htype hop
          · exact absurd ⟨hlen, htype.1, htype.2, hop⟩ hrequest
          · rfl
          · rfl
      · rw [if_neg hlen, if_neg fun h => hlen h.1]
        rfl

/-- Otherwise bytes behind the frame are read. -/
theorem feedBody_of_not_inBounds {c : Ctx} {d : List UInt8} (hout : ¬ InBounds c d)
    (ts : UInt64) : ∃ e, feedBody c d ts = .error e := by
  simp only [InBounds, Classical.not_imp, not_and_or, not_le] at hout
  rcases hout with ⟨hrole, hreply, hshort⟩
  rw [feedBody_of_reply hrole hreply]
  by_cases hmac : d.length < 28
  · rcases memcpy_of_lt (D := d) (i := 22) (n := 6) hmac with ⟨e, hmac⟩
    rw [hmac]
    exact ⟨e, rfl⟩
  · rcases hshort.resolve_left hmac with ⟨hroom, hip⟩
    rcases rd32Be_of_lt (D := d) (i := 28) hip with ⟨e, hip⟩
    rw [memcpy_of_le (by omega : 22 + 6 ≤ d.length) (by decide)]
    refine ⟨e, ?_⟩
    show learn (c.reply (replyEvent d) ts) d = _
    have hroom' : (c.reply (replyEvent d) ts).own.neighCount < maxNeigh := hroom
    rw [learn, dif_pos hroom', memcpy_of_le (by omega : 22 + 6 ≤ d.length) (by decide), hip]
    rfl

end Arprecon

/-! ## Reads inside the packet -/

namespace Probe

variable {X : Type}

/-- `*_feed_input_with_ts` reads no byte outside the packet, which would be a fault. -/
def Module.ReadsInside (m : Module X) (c : Ctx X) (d : List UInt8) (ts : UInt64) : Prop :=
  ∃ x, m.feedInputWithTs (some c) (some d) ts = .ok x

/-- The rule for a module, from what it does with packets that it looks at. -/
theorem readsInside_iff {m : Module X} {c : Ctx X} {d : List UInt8} {ts : UInt64} {P : Prop}
    (hshort : d.length < m.minLen → P)
    (hin : m.minLen ≤ d.length → P → ∃ c', m.body c d ts = .ok c')
    (hout : m.minLen ≤ d.length → ¬ P → ∃ e, m.body c d ts = .error e) :
    m.ReadsInside c d ts ↔ P := by
  rw [Module.ReadsInside]
  by_cases hlen : d.length < m.minLen
  · rw [Module.feedInputWithTs_of_short hlen]
    exact iff_of_true ⟨_, rfl⟩ (hshort hlen)
  · have hle := Nat.le_of_not_lt hlen
    rw [Module.feedInputWithTs_of_le hle]
    by_cases hP : P
    · rcases hin hle hP with ⟨c', hbody⟩
      rw [hbody]
      exact iff_of_true ⟨_, rfl⟩ hP
    · rcases hout hle hP with ⟨e, hbody⟩
      rw [hbody]
      refine iff_of_false ?_ hP
      rintro ⟨x, hx⟩
      cases hx

end Probe

open Ping (ping)
open Arping (arping)
open Traceroute (traceroute)
open Dnsdiag (dnsdiag)
open Arprecon (arprecon)

theorem Arping.inBounds_of_short {c : Arping.Ctx} {d : List UInt8} (h : d.length < 14) :
    Arping.InBounds c d :=
  fun _ => ⟨fun hop => absurd hop.1 (by omega), fun htype => absurd htype.1 (by omega)⟩

theorem Arprecon.inBounds_of_short {c : Arprecon.Ctx} {d : List UInt8} (h : d.length < 14) :
    Arprecon.InBounds c d :=
  fun _ hreply => absurd hreply.1 (by omega)

theorem Traceroute.inBounds_of_short {c : Traceroute.Ctx} {d : List UInt8} (h : d.length < 20) :
    Traceroute.InBounds c d := by
  refine ⟨by omega, fun hprobe => ?_⟩
  rw [Traceroute.IsProbe, List.getD_eq_default _ _ (by omega)] at hprobe
  exact absurd hprobe (by decide)

/-- The parsers of Ethernet frames: they stay inside the frame exactly if a reply that they copy a
MAC from has room for it.  Over the C arrays, which look at each index, no call in any history
takes one that `neigh_macs` and `neigh_ips` do not have, nor would it with any other MAC and
address, and callers see what they see over the bounded table. -/
theorem arp_reads_inside_iff (ac : Arping.Ctx) (rc : Arprecon.Ctx) (d : List UInt8) (ts : UInt64) :
    (arping.ReadsInside ac d ts ↔ Arping.InBounds ac d) ∧
    (arprecon.ReadsInside rc d ts ↔ Arprecon.InBounds rc d) ∧
    (∀ c, Arprecon.Arrays.arprecon.Reachable c → ∀ i,
      Arprecon.Arrays.arprecon.feedInputWithTs (some c) (some d) ts ≠ .error (.noSlot i)) ∧
    (∀ c, Arprecon.Arrays.arprecon.Reachable c → c.own.neighCount < Arprecon.maxNeigh →
      ∀ ev mac ip, ∃ c', Arprecon.Arrays.enter (c.reply ev ts) mac ip = .ok c') ∧
    ∀ role config calls,
      observe Arprecon.Arrays.arprecon.step
          (some (Arprecon.Arrays.arprecon.createWithConfig role config)) calls =
        observe arprecon.step (some (arprecon.createWithConfig role config)) calls := by
  refine ⟨?_, ?_, ?_, ?_, ?_⟩
  · exact Probe.readsInside_iff (m := arping) Arping.inBounds_of_short
      (fun hlen hin => ⟨_, Arping.feedBody_eq hlen hin ts⟩)
      (fun hlen hout => Arping.feedBody_of_not_inBounds hlen hout ts)
  · exact Probe.readsInside_iff (m := arprecon) Arprecon.inBounds_of_short
      (fun _ hin => ⟨_, Arprecon.feedBody_eq hin ts⟩)
      (fun _ hout => Arprecon.feedBody_of_not_inBounds hout ts)
  · exact fun _ hreach i => Arprecon.Arrays.feedInputWithTs_ne_noSlot hreach d ts i
  · exact fun _ hreach hroom ev => Arprecon.Arrays.enter_returns hreach hroom ev ts
  · exact Arprecon.Arrays.mirrors.observe_eq

/-- An ARP reply that ends behind its opcode. -/
theorem arp_read_outside :
    arping.Reachable (arping.create .requester) ∧
    ¬ arping.ReadsInside (arping.create .requester)
      [0, 0, 0, 0, 0, 0, 0, 0, 0, 0, 0, 0, 8, 6, 0, 0, 0, 0, 0, 0, 0, 2] 0 := by
  refine ⟨.create .requester none, ?_⟩
  rintro ⟨x, hx⟩
  cases hx

/-- The parsers of ICMP and DNS packets: traceroute reads the type of a packet that ends in front
of it, and a responder the sequence number of a probe that does. -/
theorem icmp_reads_inside_iff (pc : Ping.Ctx) (tc : Traceroute.Ctx) (dc : Dnsdiag.Ctx)
    (d : List UInt8) (ts : UInt64) :
    ping.ReadsInside pc d ts ∧ dnsdiag.ReadsInside dc d ts ∧
    (traceroute.ReadsInside tc d ts ↔ Traceroute.InBounds tc d) ∧
    (Traceroute.hopOf tc.own.lastSeq).1 < 32 := by
  refine ⟨?_, ?_, ?_, ?_⟩
  · exact (Probe.readsInside_iff (m := ping) (fun _ => trivial)
      (fun hlen _ => ⟨_, Ping.feedBody_eq hlen pc ts⟩)
      (fun _ hout => absurd trivial hout)).2 trivial
  · exact (Probe.readsInside_iff (m := dnsdiag) (fun _ => trivial)
      (fun hlen _ => ⟨_, Dnsdiag.feedBody_eq hlen dc ts⟩)
      (fun _ hout => absurd trivial hout)).2 trivial
  · exact Probe.readsInside_iff (m := traceroute) Traceroute.inBounds_of_short
      (fun hlen hin => ⟨_, Traceroute.feedBody_eq hlen hin ts⟩)
      (fun hlen hout => Traceroute.feedBody_of_not_inBounds hlen hout ts)
  · exact (Traceroute.hopOf tc.own.lastSeq).2

/-- Twenty zeros, which traceroute takes for an IP packet with an ICMP message. -/
theorem icmp_read_outside :
    traceroute.Reachable (traceroute.create .requester) ∧
    ¬ traceroute.ReadsInside (traceroute.create .requester) (List.replicate 20 0) 0 := by
  refine ⟨.create .requester none, ?_⟩
  rintro ⟨x, hx⟩
  cases hx

end Netdiag
