import Netdiag.Lib.Ip
import Netdiag.Probe.Latency
import Netdiag.Probe.Nmapdiag

/-!
# Recognition — packets as the protocols have them

What a requester takes a packet for, beside what the packet is.  Traceroute looks for the type of an
ICMP message where it is if the header has no options, and not for the protocol
(`hop_reported_iff`).  Arping looks for an advertisement where it would be without an Ethernet
header (`advertisement_decoded_iff`).  Dnsdiag looks at the response code of queries as well, and
does not look at the identifier (`dns_classified_iff`).  Nmapdiag looks for the flags of a segment
where they are behind a header without options, and takes one of SYN and ACK for both
(`open_detected_iff`).
-/

namespace Netdiag

open Lib

/-- What acts if its own test holds and rests otherwise acts as it should if and only if the test
is the right one. -/
theorem acts_rightly_iff {Test Should Acts Rests : Prop} (hyes : Test → Acts)
    (hno : ¬ Test → Rests) (hexcl : Rests → ¬ Acts) :
    ((Acts ↔ Should) ∧ (¬ Should → Rests)) ↔ (Test ↔ Should) := by
  have htest : Acts ↔ Test := by
    constructor
    · intro hacts
      by_contra htest
      exact hexcl (hno htest) hacts
    · exact hyes
  rw [htest]
  exact and_iff_left_of_imp fun hsame hother => hno (hsame.not.2 hother)

/-! ## ICMP errors -/

namespace Traceroute

open Probe (Role Event Call)

/-- An ICMP error that a hop answers with. -/
def IsHopError (d : List UInt8) : Prop :=
  Ipv4.protocol d = 1 ∧ ((Ipv4.payload d).getD 0 0 = 11 ∨ (Ipv4.payload d).getD 0 0 = 3)

instance (d : List UInt8) : Decidable (IsHopError d) :=
  inferInstanceAs (Decidable (_ ∧ _))

/-- The packet is queued as a hop and counted as a reply. -/
def Reports (c c' : Ctx) : Prop :=
  (∃ ev, ev.type = .tracerouteHop ∧ c'.queued = c.queued ++ [ev]) ∧ c'.replies = c.replies + 1

/-- Events, statistics and counters of the hops are left as they are. -/
structure Ignores (c c' : Ctx) : Prop where
  queued : c'.queued = c.queued
  stats : c'.stats (traceroute.lossPct c') = c.stats (traceroute.lossPct c)
  hopReplies : c'.own.hopReplies = c.own.hopReplies
  hopTimeouts : c'.own.hopTimeouts = c.own.hopTimeouts
  hopSumLat : c'.own.hopSumLat = c.own.hopSumLat
  hopCount : c'.own.hopCount = c.own.hopCount

/-- The context takes the packet for what it is. -/
def Recognizes (c : Ctx) (call : Call) (d : List UInt8) : Prop :=
  ∃ c', traceroute.step (some c) call = .ok (some c', .code 0) ∧
    (Reports c c' ↔ IsHopError d) ∧ (¬ IsHopError d → Ignores c c')

theorem reports_fed {c : Ctx} (hrole : c.role = .requester) (hfree : 0 < c.free) {d : List UInt8}
    (hreply : IsHopReply d) (ts : UInt64) : Reports c (fed c d ts) := by
  rw [fed, if_pos ⟨hreply, hrole⟩]
  let ev : Event :=
    { type := .tracerouteHop, seq := c.own.lastSeq, latencyMs := (c.stamp ts).latency ts }
  exact ⟨⟨ev, rfl, QueueCtx.queued_pushAll_one hfree ev⟩, rfl⟩

theorem ignores_fed {c : Ctx} (hrole : c.role = .requester) {d : List UInt8}
    (hother : ¬ IsHopReply d) (ts : UInt64) : Ignores c (fed c d ts) := by
  have hfed : fed c d ts = c.stamp ts := by
    rw [fed, if_neg fun h => hother h.1, if_neg fun h => by cases hrole.symm.trans h.2]
  rw [hfed]
  exact ⟨rfl, rfl, rfl, rfl, rfl, rfl⟩

theorem Ignores.not_reports {c c' : Ctx} (h : Ignores c c') : ¬ Reports c c' := by
  intro hreports
  rcases hreports.1 with ⟨ev, _, hqueued⟩
  rw [h.queued] at hqueued
  exact absurd (List.self_eq_append_right.1 hqueued) (List.cons_ne_nil ev [])

theorem recognizes_iff {c : Ctx} (hrole : c.role = .requester) (hfree : 0 < c.free)
    {call : Call} {d : List UInt8} {ts : UInt64} (hcall : call.Feeds d ts) (hlen : 20 < d.length) :
    Recognizes c call d ↔ (IsHopReply d ↔ IsHopError d) := by
  have hstep := Probe.Module.step_of_body (m := traceroute) hcall (Nat.le_of_lt hlen)
    (feedBody_eq (Nat.le_of_lt hlen) (inBounds_of_requester hrole hlen) ts)
  -- The module goes by byte 20 alone: it reports the packet or it ignores it.
  rw [← acts_rightly_iff (fun hreply => reports_fed hrole hfree hreply ts)
    (fun hother => ignores_fed hrole hother ts) Ignores.not_reports]
  constructor
  · intro hrecognizes
    rcases hrecognizes with ⟨c', hc', hright⟩
    cases hstep.symm.trans hc'
    exact hright
  · intro hright
    exact ⟨_, hstep, hright⟩

/-- Behind a header without options stands what the module takes for the type. -/
theorem isHopError_iff_of_plain {d : List UInt8} (hplain : Ipv4.headerLen d = 20) :
    IsHopError d ↔ Ipv4.protocol d = 1 ∧ IsHopReply d := by
  rw [IsHopError, Ipv4.getD_payload, hplain]
  rfl

/-- A requester with room in its queue recognizes a packet of IPv4 if and only if the byte behind a
header without options is that of an error exactly for ICMP errors.  If there are no options, these
are the packets that are of ICMP or do not have such a byte. -/
theorem hop_reported_iff {c : Ctx} (hrole : c.role = .requester) (hfree : 0 < c.free)
    {d : List UInt8} (hd : Ipv4.WellFormed 8 d) {call : Call} {ts : UInt64}
    (hcall : call.Feeds d ts) :
    (Recognizes c call d ↔ (d.getD 20 0 = 11 ∨ d.getD 20 0 = 3 ↔ IsHopError d)) ∧
    (Ipv4.headerLen d = 20 →
      (Recognizes c call d ↔ (d.getD 20 0 = 11 ∨ d.getD 20 0 = 3 → Ipv4.protocol d = 1))) := by
  have hlen : 20 < d.length := Nat.lt_of_lt_of_le (by decide) hd.length_le
  have hiff := recognizes_iff hrole hfree hcall hlen
  refine ⟨hiff, fun hplain => hiff.trans ?_⟩
  rw [isHopError_iff_of_plain hplain]
  exact iff_and_self

/-- A packet of UDP from port 2816. -/
def udpPacket : List UInt8 :=
  [69, 0, 0, 28, 0, 0, 0, 0, 64, 17, 102, 207, 10, 0, 0, 1, 10, 0, 0, 2, 11, 0, 0, 53, 0, 8, 0, 0]

/-- An ICMP error behind a header with a router alert. -/
def alertedError : List UInt8 :=
  [70, 0, 0, 32, 0, 0, 0, 0, 64, 1, 209, 214, 10, 0, 0, 1, 10, 0, 0, 2, 148, 4, 0, 0, 11, 0, 244,
    255, 0, 0, 0, 0]

/-- The error without the option. -/
def plainError : List UInt8 :=
  [69, 0, 0, 28, 0, 0, 0, 0, 64, 1, 102, 223, 10, 0, 0, 1, 10, 0, 0, 2, 11, 0, 244, 255, 0, 0, 0, 0]

theorem hop_reported_plain :
    Recognizes (traceroute.create .requester) (.feedInput (some plainError)) plainError :=
  ((hop_reported_iff rfl (by decide) ⟨rfl, by decide, by decide⟩ (.inr ⟨rfl, rfl⟩)).2 (by decide)).2
    (by decide)

/-- The packet of UDP is taken for a hop, and the error is not. -/
theorem hop_misreported :
    Ipv4.WellFormed 8 udpPacket ∧
    ¬ Recognizes (traceroute.create .requester) (.feedInput (some udpPacket)) udpPacket ∧
    Ipv4.WellFormed 8 alertedError ∧
    ¬ Recognizes (traceroute.create .requester) (.feedInput (some alertedError)) alertedError := by
  refine ⟨⟨rfl, by decide, by decide⟩, ?_, ⟨rfl, by decide, by decide⟩, ?_⟩
  · rw [recognizes_iff rfl (by decide) (.inr ⟨rfl, rfl⟩) (by decide)]
    decide
  · rw [recognizes_iff rfl (by decide) (.inr ⟨rfl, rfl⟩) (by decide)]
    decide

end Traceroute

/-! ## Neighbour advertisements -/

namespace Arping

open Probe (Role Event Call)

/-- The frame is one of IPv6. -/
def IsIpv6 (d : List UInt8) : Prop :=
  14 ≤ d.length ∧ d.getD 12 0 = 0x86 ∧ d.getD 13 0 = 0xdd

instance (d : List UInt8) : Decidable (IsIpv6 d) :=
  inferInstanceAs (Decidable (_ ∧ _))

/-- The message behind the headers of the packet is a neighbour advertisement. -/
def IsAdvertisement (d : List UInt8) : Prop :=
  (Ipv6.upper (d.drop 14)).1 = 58 ∧ (Ipv6.upper (d.drop 14)).2.getD 0 0 = 136

instance (d : List UInt8) : Decidable (IsAdvertisement d) :=
  inferInstanceAs (Decidable (_ ∧ _))

/-- An advertisement right behind a header of version 6, with a target link-layer address among its
options. -/
structure Advertises (d : List UInt8) (mac : Vector UInt8 6) : Prop where
  frame : IsIpv6 d
  version : d.getD 14 0 >>> 4 = 6
  next : d.getD 20 0 = 58
  type : d.getD 54 0 = 136
  option : HasOption 2 (d.drop 78) mac.toList

/-- The frame is looked at, and leaves these events in the queue. -/
def Enqueues (c : Ctx) (call : Call) (es : List Event) : Prop :=
  ∃ c', arping.step (some c) call = .ok (some c', .code 0) ∧ c'.queued = c.queued ++ es

/-- The context takes the frame for what it is. -/
def Recognizes (c : Ctx) (call : Call) (d : List UInt8) : Prop :=
  (∀ mac, Advertises d mac →
    ∃ ev, ev.type = .arpReply ∧ ev.srcMac = mac ∧ Enqueues c call [ev]) ∧
  (¬ IsAdvertisement d → Enqueues c call [])

theorem Advertises.length_le {d : List UInt8} {mac : Vector UInt8 6} (h : Advertises d mac) :
    86 ≤ d.length := by
  have hoption := h.option.length_le
  rw [Vector.length_toList, List.length_drop] at hoption
  omega

theorem Advertises.isAdvertisement {d : List UInt8} {mac : Vector UInt8 6}
    (h : Advertises d mac) : IsAdvertisement d := by
  have hnext : (d.drop 14).getD 6 0 = 58 := by
    rw [List.getD_eq_getElem?_getD, List.getElem?_drop, ← List.getD_eq_getElem?_getD]
    exact h.next
  have hplain : Ipv6.extensionLen ((d.drop 14).getD 6 0) ((d.drop 14).drop 40) = none := by
    rw [hnext]
    rfl
  rw [IsAdvertisement, Ipv6.upper_of_plain hplain, hnext, List.drop_drop]
  refine ⟨rfl, ?_⟩
  rw [List.getD_eq_getElem?_getD, List.getElem?_drop, ← List.getD_eq_getElem?_getD]
  exact h.type

theorem not_isArp {d : List UInt8} (h : IsIpv6 d) (op : UInt8) : ¬ IsArp op d := by
  intro harp
  exact absurd (h.2.1.symm.trans harp.2.1) (by decide)

theorem isNdp_iff {d : List UInt8} (h : IsIpv6 d) (type : UInt8) :
    IsNdp type d ↔ 40 < d.length ∧ d.getD 40 0 = type := by
  rw [IsNdp]
  exact ⟨fun hndp => ⟨hndp.1, hndp.2.2.2⟩, fun hndp => ⟨hndp.1, h.2.1, h.2.2, hndp.2⟩⟩

/-- A frame without the type of an advertisement where it is looked for. -/
theorem enqueues_nothing {c : Ctx} (hrole : c.role = .requester) {d : List UInt8} (hd : IsIpv6 d)
    (hother : ¬ IsNdp 136 d) {call : Call} {ts : UInt64} (hcall : call.Feeds d ts) :
    Enqueues c call [] := by
  have hin : InBounds c d :=
    fun _ => ⟨fun harp => absurd harp (not_isArp hd 2), fun hndp => absurd hndp hother⟩
  refine ⟨_, Probe.Module.step_of_body (m := arping) hcall hd.1 (feedBody_eq hd.1 hin ts), ?_⟩
  have hfed : fed c d ts = c := by
    rw [fed, if_neg fun h => not_isArp hd 2 h.1, if_neg fun h => hother h.1,
      if_neg fun h => by cases hrole.symm.trans h.2]
  rw [hfed, List.append_nil]

/-- The event that a frame with it makes. -/
def advertisedEvent (c : Ctx) (d : List UInt8) (ts : UInt64) : Event :=
  { type := .arpReply, srcMac := advertisedMac d, latencyMs := c.latency ts }

theorem enqueues_one {c : Ctx} (hrole : c.role = .requester) (hfree : 0 < c.free)
    {d : List UInt8} (hd : IsIpv6 d) (hndp : IsNdp 136 d) (hlen : d.length ≠ 71) {call : Call}
    {ts : UInt64} (hcall : call.Feeds d ts) : Enqueues c call [advertisedEvent c d ts] := by
  have hin : InBounds c d := fun _ => ⟨fun harp => absurd harp (not_isArp hd 2), fun _ => hlen⟩
  refine ⟨_, Probe.Module.step_of_body (m := arping) hcall hd.1 (feedBody_eq hd.1 hin ts), ?_⟩
  rw [fed, if_neg fun h => not_isArp hd 2 h.1, if_pos ⟨hndp, hrole⟩]
  exact QueueCtx.queued_pushAll_one hfree (advertisedEvent c d ts)

/-- A call leaves one thing in the queue. -/
theorem Enqueues.unique {c : Ctx} {call : Call} {es fs : List Event} (h : Enqueues c call es)
    (h' : Enqueues c call fs) : es = fs := by
  rcases h with ⟨c', hstep, hqueued⟩
  rcases h' with ⟨c'', hstep', hqueued'⟩
  cases hstep.symm.trans hstep'
  exact List.append_cancel_left (hqueued.symm.trans hqueued')

/-- A frame that is read behind its end. -/
theorem not_enqueues {c : Ctx} (hrole : c.role = .requester) {d : List UInt8} (hd : IsIpv6 d)
    (hndp : IsNdp 136 d) (hlen : d.length = 71) {call : Call} {ts : UInt64}
    (hcall : call.Feeds d ts) (es : List Event) : ¬ Enqueues c call es := by
  intro h
  rcases h with ⟨c', hstep, _⟩
  rcases feedBody_of_not_inBounds hd.1 (fun hin => (hin hrole).2 hndp hlen) ts with ⟨e, hbody⟩
  have hfails : arping.body c d ts = .error e := hbody
  rw [Probe.Module.step_feed hcall, Probe.Module.feedInputWithTs_of_le hd.1, hfails] at hstep
  cases hstep

/-- A requester with room in its queue recognizes a frame of IPv6 if and only if byte 40 is the type
of an advertisement and bytes 66 to 71 are its link-layer address, and byte 40 of a frame that is no
advertisement is not that type. -/
theorem advertisement_decoded_iff {c : Ctx} (hrole : c.role = .requester) (hfree : 0 < c.free)
    {d : List UInt8} (hd : IsIpv6 d) {call : Call} {ts : UInt64} (hcall : call.Feeds d ts) :
    Recognizes c call d ↔
      (∀ mac, Advertises d mac → d.getD 40 0 = 136 ∧ bytesOf 6 (d.drop 66) = mac) ∧
      (¬ IsAdvertisement d → ¬ (40 < d.length ∧ d.getD 40 0 = 136)) := by
  rw [← isNdp_iff hd 136]
  constructor
  · intro hrecognizes
    refine ⟨fun mac hadv => ?_, fun hnot hndp => ?_⟩
    · have hlen := hadv.length_le
      -- The event that is expected is the one that the module makes, so its address is too.
      rcases hrecognizes.1 mac hadv with ⟨ev, _, hmac, hone⟩
      by_cases hndp : IsNdp 136 d
      · have hevents := hone.unique (enqueues_one hrole hfree hd hndp (by omega) hcall)
        obtain rfl := List.singleton_inj.1 hevents
        rw [← hmac]
        exact ⟨hndp.2.2.2, (if_pos (by omega : d.length > 70)).symm⟩
      · exact absurd (hone.unique (enqueues_nothing hrole hd hndp hcall)) (List.cons_ne_nil ev [])
    · have hnothing := hrecognizes.2 hnot
      -- With one byte of the address missing at the end the call does not return.
      by_cases hlen : d.length = 71
      · exact not_enqueues hrole hd hndp hlen hcall [] hnothing
      · have hevents := hnothing.unique (enqueues_one hrole hfree hd hndp hlen hcall)
        exact List.cons_ne_nil _ [] hevents.symm
  · intro h
    -- Behind an option there are enough bytes for what the module reads.
    refine ⟨fun mac hadv => ?_, fun hnot => enqueues_nothing hrole hd (h.2 hnot) hcall⟩
    have hlen := hadv.length_le
    have hbytes := h.1 mac hadv
    have hndp : IsNdp 136 d := (isNdp_iff hd 136).2 ⟨by omega, hbytes.1⟩
    refine ⟨advertisedEvent c d ts, rfl, ?_, enqueues_one hrole hfree hd hndp (by omega) hcall⟩
    rw [← hbytes.2]
    exact if_pos (by omega : d.length > 70)

/-- The advertisement of 2001:8800:200::1:0:0:1 to 2001:8800::2, by 02:00:00:00:00:01. -/
def chosenAddresses : List UInt8 :=
  [2, 0, 0, 0, 0, 2, 2, 0, 0, 0, 0, 1, 134, 221, 96, 0, 0, 0, 0, 32, 58, 255, 254, 128, 0, 0, 0, 0,
    0, 0, 0, 0, 0, 0, 0, 0, 0, 1, 32, 1, 136, 0, 0, 0, 0, 0, 0, 0, 0, 0, 0, 0, 0, 2, 136, 0, 195,
    25, 96, 0, 0, 0, 32, 1, 136, 0, 2, 0, 0, 0, 0, 1, 0, 0, 0, 0, 0, 1, 2, 1, 2, 0, 0, 0, 0, 1]

theorem advertisement_decoded_chosen :
    Recognizes (arping.create .requester) (.feedInput (some chosenAddresses)) chosenAddresses := by
  have hframe : IsIpv6 chosenAddresses := ⟨by decide, rfl, rfl⟩
  have hadv : Advertises chosenAddresses #v[2, 0, 0, 0, 0, 1] :=
    ⟨hframe, rfl, rfl, rfl, .here (by decide) (by decide)⟩
  apply (advertisement_decoded_iff rfl (by decide) hframe (.inr ⟨rfl, rfl⟩)).2
  refine ⟨fun mac hadv' => ⟨rfl, ?_⟩, fun hnot => absurd hadv.isAdvertisement hnot⟩
  -- The frame has one such option.
  rw [← Vector.toList_inj, hadv'.option.unique hadv.option]
  decide

/-- The advertisement of fe80::1 to fe80::2, by 02:00:00:00:00:01. -/
def linkLocalAddresses : List UInt8 :=
  [2, 0, 0, 0, 0, 2, 2, 0, 0, 0, 0, 1, 134, 221, 96, 0, 0, 0, 0, 32, 58, 255, 254, 128, 0, 0, 0, 0,
    0, 0, 0, 0, 0, 0, 0, 0, 0, 1, 254, 128, 0, 0, 0, 0, 0, 0, 0, 0, 0, 0, 0, 0, 0, 2, 136, 0, 24,
    28, 96, 0, 0, 0, 254, 128, 0, 0, 0, 0, 0, 0, 0, 0, 0, 0, 0, 0, 0, 1, 2, 1, 2, 0, 0, 0, 0, 1]

/-- It makes no event. -/
theorem advertisement_missed :
    Advertises linkLocalAddresses #v[2, 0, 0, 0, 0, 1] ∧
    Enqueues (arping.create .requester) (.feedInput (some linkLocalAddresses)) [] ∧
    ¬ Recognizes (arping.create .requester) (.feedInput (some linkLocalAddresses))
      linkLocalAddresses := by
  have hframe : IsIpv6 linkLocalAddresses := ⟨by decide, rfl, rfl⟩
  have hadv : Advertises linkLocalAddresses #v[2, 0, 0, 0, 0, 1] :=
    ⟨hframe, rfl, rfl, rfl, .here (by decide) (by decide)⟩
  have hnothing : Enqueues (arping.create .requester) (.feedInput (some linkLocalAddresses)) [] :=
    enqueues_nothing rfl hframe (by decide) (.inr ⟨rfl, rfl⟩)
  refine ⟨hadv, hnothing, fun hrecognizes => ?_⟩
  rcases hrecognizes.1 _ hadv with ⟨ev, _, _, hone⟩
  exact List.cons_ne_nil ev [] (hone.unique hnothing)

end Arping

/-! ## DNS messages -/

namespace Dnsdiag

open Probe (Role Event EventType Call)

/-- The message has the bit of a response. -/
def IsAnswer (d : List UInt8) : Prop :=
  be16At d 2 &&& 0x8000 ≠ 0

instance (d : List UInt8) : Decidable (IsAnswer d) :=
  inferInstanceAs (Decidable (_ ≠ _))

def rcodeOf (d : List UInt8) : UInt16 :=
  be16At d 2 &&& 0x000F

def identifier (d : List UInt8) : UInt32 :=
  (be16At d 0).toUInt32

/-- A response is an event, with its identifier; without an error it counts as a reply. -/
structure TakenForAnswer (c c' : Ctx) (d : List UInt8) (es : List Event) : Prop where
  event : ∃ ev, es = [ev] ∧ ev.seq = identifier d ∧
    ev.type = if rcodeOf d = 0 then .dnsReply else .faultDetected
  reply : rcodeOf d = 0 → c'.replies = c.replies + 1

/-- A query is no event and changes no statistic. -/
structure TakenForQuery (c c' : Ctx) (es : List Event) : Prop where
  event : es = []
  stats : c'.stats (dnsdiag.lossPct c') = c.stats (dnsdiag.lossPct c)

/-- The context takes the message for what it is. -/
def Recognizes (c : Ctx) (call : Call) (d : List UInt8) : Prop :=
  ∃ c', dnsdiag.step (some c) call = .ok (some c', .code 0) ∧
    if IsAnswer d then TakenForAnswer c c' d (dnsdiag.generated c call)
    else TakenForQuery c c' (dnsdiag.generated c call)

theorem generated_of_feeds (c : Ctx) {call : Call} {d : List UInt8} {ts : UInt64}
    (hcall : call.Feeds d ts) : dnsdiag.generated c call = (packetEvent c d ts).toList := by
  rw [makes_event]
  rcases hcall with rfl | ⟨rfl, rfl⟩ <;> rfl

theorem recognizes_iff_taken (c : Ctx) {call : Call} {d : List UInt8} {ts : UInt64}
    (hlen : 12 ≤ d.length) (hcall : call.Feeds d ts) :
    Recognizes c call d ↔
      if IsAnswer d then TakenForAnswer c (fed c d ts) d (packetEvent c d ts).toList
      else TakenForQuery c (fed c d ts) (packetEvent c d ts).toList := by
  have hstep := Probe.Module.step_of_body (m := dnsdiag) hcall hlen (feedBody_eq hlen c ts)
  rw [Recognizes, generated_of_feeds c hcall]
  constructor
  · intro h
    rcases h with ⟨c', hc', htaken⟩
    cases hstep.symm.trans hc'
    exact htaken
  · intro htaken
    exact ⟨_, hstep, htaken⟩

/-! A requester makes one of two events of a message, or none. -/

theorem taken_of_fault {c : Ctx} (hrole : c.role = .requester) {d : List UInt8}
    (hlen : 12 ≤ d.length) (hfault : rcodeOf d ≠ 0) (ts : UInt64) :
    packetEvent c d ts = some (faultEvent c (rcodeOf d)) := by
  have hrcode : be16At d 2 &&& 0x000F ≠ 0 := hfault
  rw [packetEvent, if_pos ⟨hlen, hrole⟩, if_pos hrcode]
  rfl

theorem taken_of_reply {c : Ctx} (hrole : c.role = .requester) {d : List UInt8}
    (hlen : 12 ≤ d.length) (hfine : rcodeOf d = 0) (hanswer : IsAnswer d) (ts : UInt64) :
    packetEvent c d ts =
      some { type := .dnsReply, seq := c.own.lastSeq, latencyMs := (c.stamp ts).latency ts } ∧
    (fed c d ts).replies = c.replies + 1 := by
  have hrcode : ¬ be16At d 2 &&& 0x000F ≠ 0 := not_not_intro hfine
  have hbit : be16At d 2 &&& 0x8000 ≠ 0 := hanswer
  rw [packetEvent, if_pos ⟨hlen, hrole⟩, if_neg hrcode, if_pos hbit, fed,
    if_neg fun h => hrcode h.1, if_pos ⟨hbit, hrole⟩]
  exact ⟨rfl, rfl⟩

/-- An event that tells the response code, with the number of the context. -/
theorem event_of_answer {c : Ctx} (hrole : c.role = .requester) {d : List UInt8}
    (hlen : 12 ≤ d.length) (hanswer : IsAnswer d) (ts : UInt64) :
    ∃ ev, packetEvent c d ts = some ev ∧ ev.seq = c.own.lastSeq ∧
      ev.type = if rcodeOf d = 0 then .dnsReply else .faultDetected := by
  by_cases hfine : rcodeOf d = 0
  · have htaken := taken_of_reply hrole hlen hfine hanswer ts
    exact ⟨_, htaken.1, rfl, (if_pos hfine).symm⟩
  · exact ⟨_, taken_of_fault hrole hlen hfine ts, rfl, (if_neg hfine).symm⟩

theorem taken_of_query {c : Ctx} (hrole : c.role = .requester) {d : List UInt8}
    (hlen : 12 ≤ d.length) (hfine : rcodeOf d = 0) (hquery : ¬ IsAnswer d) (ts : UInt64) :
    packetEvent c d ts = none ∧ fed c d ts = c.stamp ts := by
  have hrcode : ¬ be16At d 2 &&& 0x000F ≠ 0 := not_not_intro hfine
  have hbit : ¬ be16At d 2 &&& 0x8000 ≠ 0 := hquery
  rw [packetEvent, if_pos ⟨hlen, hrole⟩, if_neg hrcode, if_neg hbit, fed,
    if_neg fun h => hrcode h.1, if_neg fun h => hbit h.1,
    if_neg fun h => by cases hrole.symm.trans h]
  exact ⟨rfl, rfl⟩

theorem recognizes_iff {c : Ctx} (hrole : c.role = .requester) (hseq : c.own.lastSeq = 0)
    {d : List UInt8} (hlen : 12 ≤ d.length) {call : Call} {ts : UInt64}
    (hcall : call.Feeds d ts) :
    Recognizes c call d ↔
      (IsAnswer d → be16At d 0 = 0) ∧ (¬ IsAnswer d → rcodeOf d = 0) := by
  have hzero : identifier d = 0 ↔ be16At d 0 = 0 := by
    rw [identifier]
    exact @UInt16.toUInt32_inj (be16At d 0) 0
  rw [recognizes_iff_taken c hlen hcall, ← ite_prop_iff_and]
  by_cases hanswer : IsAnswer d
  · rw [if_pos hanswer, if_pos hanswer, ← hzero]
    rcases event_of_answer hrole hlen hanswer ts with ⟨ev, hevent, hnumber, htype⟩
    rw [hevent]
    constructor
    · -- The event has the number of the context, which is 0.
      intro h
      rcases h.event with ⟨ev', hsame, hid, _⟩
      obtain rfl := List.singleton_inj.1 hsame
      rw [← hid, hnumber, hseq]
    · intro hid
      refine ⟨⟨ev, rfl, ?_, htype⟩, fun hfine => (taken_of_reply hrole hlen hfine hanswer ts).2⟩
      rw [hid, hnumber, hseq]
  · rw [if_neg hanswer, if_neg hanswer]
    constructor
    · intro h
      by_contra hfault
      -- An error code makes an event of a query.
      have hevent := h.event
      rw [taken_of_fault hrole hlen hfault] at hevent
      exact List.cons_ne_nil _ [] hevent
    · intro hfine
      have htaken := taken_of_query hrole hlen hfine hanswer ts
      rw [htaken.1, htaken.2]
      exact ⟨rfl, rfl⟩

/-- In every state, a requester recognizes a response if and only if its identifier is 0, and a
query if and only if its response code is 0. -/
theorem dns_classified_iff {c : Ctx} (h : dnsdiag.Reachable c) (hrole : c.role = .requester)
    {d : List UInt8} (hlen : 12 ≤ d.length) {call : Call} {ts : UInt64}
    (hcall : call.Feeds d ts) :
    Recognizes c call d ↔
      (IsAnswer d → be16At d 0 = 0) ∧ (¬ IsAnswer d → rcodeOf d = 0) :=
  recognizes_iff hrole (lastSeq_of_requester h hrole) hlen hcall

/-- A response without an error to the query with this identifier. -/
def answerTo (id : UInt8) : List UInt8 :=
  [0, id, 0x81, 0x80, 0, 1, 0, 1, 0, 0, 0, 0]

theorem dns_classified_zero :
    Recognizes (dnsdiag.create .requester) (.feedInput (some (answerTo 0))) (answerTo 0) :=
  (dns_classified_iff (.create .requester none) rfl (by decide) (.inr ⟨rfl, rfl⟩)).2
    ⟨fun _ => rfl, fun _ => rfl⟩

/-- A query with low flag bits is taken for an error, and the response to query 1 for one to
query 0. -/
theorem dns_misclassified :
    dnsdiag.Reachable (dnsdiag.create .requester) ∧
    ¬ Recognizes (dnsdiag.create .requester)
      (.feedInput (some [0, 0, 0x01, 0x02, 0, 1, 0, 0, 0, 0, 0, 0]))
      [0, 0, 0x01, 0x02, 0, 1, 0, 0, 0, 0, 0, 0] ∧
    ¬ Recognizes (dnsdiag.create .requester) (.feedInput (some (answerTo 1))) (answerTo 1) := by
  refine ⟨.create .requester none, ?_, ?_⟩
  · rw [recognizes_iff rfl rfl (by decide) (.inr ⟨rfl, rfl⟩)]
    decide
  · rw [recognizes_iff rfl rfl (by decide) (.inr ⟨rfl, rfl⟩)]
    decide

end Dnsdiag

/-! ## Answers of ports -/

namespace Nmapdiag

open Probe (Role)

/-- A segment of TCP with a whole header, in a packet of IPv4. -/
structure IsTcp (d : List UInt8) : Prop where
  packet : Ipv4.WellFormed 20 d
  protocol : Ipv4.protocol d = 6
  segment : Tcp.WellFormed (Ipv4.payload d)

/-- The segment is queued as the answer of an open port and counted as a reply. -/
def Reports (c c' : Ctx) : Prop :=
  (∃ ev, ev.type = .probeReply ∧ c'.queued = c.queued ++ [ev]) ∧ c'.replies = c.replies + 1

/-- Events and statistics are left as they are. -/
structure Ignores (c c' : Ctx) : Prop where
  queued : c'.queued = c.queued
  stats : c'.stats = c.stats

/-- The context takes the segment for what it is. -/
def Recognizes (c : Ctx) (d : List UInt8) (ts : UInt64) : Prop :=
  ∃ c', feedInputWithTs (some c) (some d) ts = .ok (0, some c') ∧
    (Reports c c' ↔ Tcp.SynAck (Ipv4.payload d)) ∧
    (¬ Tcp.SynAck (Ipv4.payload d) → Ignores c c')

/-- What becomes of a requester that is fed a segment. -/
def taken (c : Ctx) (d : List UInt8) (ts : UInt64) : Ctx :=
  if d.getD 33 0 &&& 0x12 ≠ 0 then (c.stamp ts).tcpReply ts else c.stamp ts

theorem feed_eq {c : Ctx} (hrole : c.role = .requester) {d : List UInt8} (hd : IsTcp d)
    (ts : UInt64) : feedInputWithTs (some c) (some d) ts = .ok (0, some (taken c d ts)) := by
  have hlen : 40 ≤ d.length := hd.packet.length_le
  have hproto : d.getD 9 0 = 6 ∧ (c.stamp ts).role = .requester := ⟨hd.protocol, hrole⟩
  have hbody : feedBody c d ts = .ok (taken c d ts) := by
    rw [feedBody, rd_of_lt (by omega : 9 + 1 ≤ d.length), rd_of_lt (by omega : 33 + 1 ≤ d.length)]
    exact if_pos hproto
  rw [feedInputWithTs, if_neg (by omega), hbody]
  rfl

theorem reports_taken {c : Ctx} (hfree : 0 < c.free) {d : List UInt8}
    (htest : d.getD 33 0 &&& 0x12 ≠ 0) (ts : UInt64) : Reports c (taken c d ts) := by
  rw [taken, if_pos htest]
  let ev : Event :=
    { type := .probeReply, seq := c.lastSeq, latencyMs := (c.stamp ts).latency ts }
  exact ⟨⟨ev, rfl, QueueCtx.queued_pushAll_one hfree ev⟩, rfl⟩

theorem ignores_taken (c : Ctx) {d : List UInt8} (htest : ¬ d.getD 33 0 &&& 0x12 ≠ 0)
    (ts : UInt64) : Ignores c (taken c d ts) := by
  rw [taken, if_neg htest]
  exact ⟨rfl, rfl⟩

theorem Ignores.not_reports {c c' : Ctx} (h : Ignores c c') : ¬ Reports c c' := by
  intro hreports
  rcases hreports.1 with ⟨ev, _, hqueued⟩
  rw [h.queued] at hqueued
  exact absurd (List.self_eq_append_right.1 hqueued) (List.cons_ne_nil ev [])

theorem recognizes_iff {c : Ctx} (hrole : c.role = .requester) (hfree : 0 < c.free)
    {d : List UInt8} (hd : IsTcp d) (ts : UInt64) :
    Recognizes c d ts ↔ (d.getD 33 0 &&& 0x12 ≠ 0 ↔ Tcp.SynAck (Ipv4.payload d)) := by
  -- The module goes by two bits of byte 33 alone.
  rw [← acts_rightly_iff (fun htest => reports_taken hfree htest ts)
    (fun htest => ignores_taken c htest ts) Ignores.not_reports]
  constructor
  · intro hrecognizes
    rcases hrecognizes with ⟨c', hc', hright⟩
    cases (feed_eq hrole hd ts).symm.trans hc'
    exact hright
  · intro hright
    exact ⟨_, feed_eq hrole hd ts, hright⟩

/-- Behind a header without options stands what the module takes for the flags. -/
theorem flags_of_plain {d : List UInt8} (hplain : Ipv4.headerLen d = 20) :
    Tcp.flags (Ipv4.payload d) = d.getD 33 0 := by
  rw [Tcp.flags, Ipv4.getD_payload, hplain]

/-- A requester with room in its queue recognizes a segment of TCP if and only if byte 33 of the
packet has one of the bits of SYN and ACK exactly for segments with both flags.  If the header of
IPv4 has no options, these are the segments that have both flags or none of them. -/
theorem open_detected_iff {c : Ctx} (hrole : c.role = .requester) (hfree : 0 < c.free)
    {d : List UInt8} (hd : IsTcp d) (ts : UInt64) :
    (Recognizes c d ts ↔ (d.getD 33 0 &&& 0x12 ≠ 0 ↔ Tcp.SynAck (Ipv4.payload d))) ∧
    (Ipv4.headerLen d = 20 →
      (Recognizes c d ts ↔ (Tcp.flags (Ipv4.payload d) &&& 0x02 ≠ 0 ↔
        Tcp.flags (Ipv4.payload d) &&& 0x10 ≠ 0))) := by
  have hiff := recognizes_iff hrole hfree hd ts
  refine ⟨hiff, fun hplain => hiff.trans ?_⟩
  rw [Tcp.SynAck, flags_of_plain hplain, Tcp.synOrAck_iff]
  tauto

/-- A segment from port 80 with these flags and this low byte of the checksum, behind a header
without options. -/
def segmentWith (flags check : UInt8) : List UInt8 :=
  [69, 0, 0, 40, 0, 0, 0, 0, 64, 6, 102, 206, 10, 0, 0, 1, 10, 0, 0, 2, 0, 80, 156, 64, 0, 0, 0, 0,
    0, 0, 0, 1, 80, flags, 4, 0, 251, check, 0, 0]

/-- SYN and ACK, behind a header with a router alert. -/
def alertedSynAck : List UInt8 :=
  [70, 0, 0, 44, 0, 0, 0, 0, 64, 6, 209, 197, 10, 0, 0, 1, 10, 0, 0, 2, 148, 4, 0, 0, 0, 80, 156,
    64, 0, 0, 0, 0, 0, 0, 0, 1, 80, 18, 4, 0, 251, 62, 0, 0]

theorem open_detected_synAck :
    Recognizes (create .requester) (segmentWith 0x12 62) 0 :=
  (open_detected_iff rfl (by decide)
    ⟨⟨rfl, by decide, by decide⟩, rfl, ⟨by decide, by decide⟩⟩ 0).1.2 (by decide)

/-- RST and ACK from a closed port count as an answer, and SYN and ACK behind an option do not. -/
theorem open_misdetected :
    IsTcp (segmentWith 0x14 60) ∧ ¬ Recognizes (create .requester) (segmentWith 0x14 60) 0 ∧
    IsTcp alertedSynAck ∧ ¬ Recognizes (create .requester) alertedSynAck 0 := by
  have hreset : IsTcp (segmentWith 0x14 60) :=
    ⟨⟨rfl, by decide, by decide⟩, rfl, ⟨by decide, by decide⟩⟩
  have halerted : IsTcp alertedSynAck :=
    ⟨⟨rfl, by decide, by decide⟩, rfl, ⟨by decide, by decide⟩⟩
  refine ⟨hreset, ?_, halerted, ?_⟩
  · rw [recognizes_iff rfl (by decide) hreset]
    decide
  · rw [recognizes_iff rfl (by decide) halerted]
    decide

end Nmapdiag
end Netdiag
