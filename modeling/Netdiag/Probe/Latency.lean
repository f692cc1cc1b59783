import Netdiag.Probe.Events
import Netdiag.Probe.Packets
import Netdiag.Probe.Reset

/-!
# Latency — the times that requesters measure

The decision on events asks for the time from a probe to its reply.  A requester of ping or arping
does not keep the time of its probe, and takes the latency to be 5; traceroute and dnsdiag set the
time of the probe to that of the reply before they take the difference, which is 0
(`latency_measured_iff`).
-/

namespace Netdiag
namespace Probe

open Lib

variable {X : Type}

/-- The statistics of `c'` are those of `c` with one more latency. -/
structure Ctx.Enters (c c' : Ctx X) (lat : UInt32) : Prop where
  sum : c'.sumLat = c.sumLat + lat
  count : c'.countLat = c.countLat + 1
  max : c'.maxLat.toNat = max c.maxLat.toNat lat.toNat
  min : c'.minLat.toNat = min c.minLat.toNat lat.toNat

/-- The probe `d` goes out at `t₀` and the reply `d'` comes in at `t₁`: this makes an event of the
type, which has the time between them, and that time enters the statistics. -/
def Module.Measures (m : Module X) (type : EventType) (c : Ctx X) (d d' : List UInt8)
    (t₀ t₁ : UInt64) : Prop :=
  ∃ c₁ c₂ ev, m.step (some c) (.feedInputWithTs (some d) t₀) = .ok (some c₁, .code 0) ∧
    m.step (some c₁) (.feedInputWithTs (some d') t₁) = .ok (some c₂, .code 0) ∧
    m.generated c₁ (.feedInputWithTs (some d') t₁) = [ev] ∧ ev.type = type ∧
    ev.latencyMs.toNat = t₁.toNat - t₀.toNat ∧ c₁.Enters c₂ ev.latencyMs

/-- A reply enters the statistics with the latency of its event. -/
theorem enters_reply (c : Ctx X) (ev : Event) (ts : UInt64) (own : X) :
    c.Enters { c.reply ev ts with own := own } (c.latency ts) := by
  generalize hlat : c.latency ts = lat
  have hmax : (c.reply ev ts).maxLat = if lat > c.maxLat then lat else c.maxLat := hlat ▸ rfl
  have hmin : (c.reply ev ts).minLat = if lat < c.minLat then lat else c.minLat := hlat ▸ rfl
  refine { sum := hlat ▸ rfl, count := rfl, max := ?_, min := ?_ }
  · show (c.reply ev ts).maxLat.toNat = _
    rw [hmax, apply_ite UInt32.toNat]
    simp only [gt_iff_lt, UInt32.lt_iff_toNat_lt]
    split_ifs <;> omega
  · show (c.reply ev ts).minLat.toNat = _
    rw [hmin, apply_ite UInt32.toNat]
    simp only [UInt32.lt_iff_toNat_lt]
    split_ifs <;> omega

/-- So does one whose time has been kept first. -/
theorem enters_stamp_reply (c : Ctx X) (ev : Event) (ts : UInt64) (own : X) :
    c.Enters { (c.stamp ts).reply ev ts with own := own } ((c.stamp ts).latency ts) :=
  have h := enters_reply (c.stamp ts) ev ts own
  ⟨h.sum, h.count, h.max, h.min⟩

/-- The rule for a module: what a probe and then a reply do decides what is measured. -/
theorem measures_iff {m : Module X} {type : EventType} {c c₁ c₂ : Ctx X} {d d' : List UInt8}
    {t₀ t₁ : UInt64} {ev : Event} (hlen : m.minLen ≤ d.length) (hlen' : m.minLen ≤ d'.length)
    (hprobe : m.body c d t₀ = .ok c₁) (hreply : m.body c₁ d' t₁ = .ok c₂)
    (hgen : m.generated c₁ (.feedInputWithTs (some d') t₁) = [ev]) (htype : ev.type = type)
    (henters : c₁.Enters c₂ ev.latencyMs) :
    m.Measures type c d d' t₀ t₁ ↔ ev.latencyMs.toNat = t₁.toNat - t₀.toNat := by
  have hstep : m.step (some c) (.feedInputWithTs (some d) t₀) = .ok (some c₁, .code 0) :=
    Module.step_of_body (.inl rfl) hlen hprobe
  have hstep' : m.step (some c₁) (.feedInputWithTs (some d') t₁) = .ok (some c₂, .code 0) :=
    Module.step_of_body (.inl rfl) hlen' hreply
  constructor
  · rintro ⟨a₁, a₂, e, hfirst, _, hevent, _, hlat, _⟩
    -- Both calls are functions of the context, so these are the contexts and the event.
    cases hstep.symm.trans hfirst
    obtain rfl : ev = e := List.singleton_inj.1 (hgen.symm.trans hevent)
    exact hlat
  · intro hlat
    exact ⟨c₁, c₂, ev, hstep, hstep', hgen, htype, hlat, henters⟩

/-- A module that keeps no time of a probe takes the latency to be 5. -/
theorem measures_iff_of_untimed {m : Module X} {type : EventType} {c : Ctx X} {d d' : List UInt8}
    {t₀ t₁ : UInt64} {ev : Event} (hlen : m.minLen ≤ d.length) (hlen' : m.minLen ≤ d'.length)
    (hnone : c.sendTs = 0) (hprobe : m.body c d t₀ = .ok c)
    (hreply : m.body c d' t₁ = .ok (c.reply ev t₁))
    (hgen : m.generated c (.feedInputWithTs (some d') t₁) =
      [{ ev with latencyMs := c.latency t₁ }]) (htype : ev.type = type) :
    m.Measures type c d d' t₀ t₁ ↔ t₁.toNat - t₀.toNat = 5 := by
  have hlat : c.latency t₁ = 5 := if_neg fun hset => hset.1 hnone
  rw [measures_iff hlen hlen' hprobe hreply hgen htype (enters_reply c ev t₁ c.own), hlat]
  exact eq_comm

/-- A module that keeps the time of every packet takes the reply's own time for that of the
probe. -/
theorem not_measures_of_stamp {m : Module X} {type : EventType} {c : Ctx X} {d d' : List UInt8}
    {t₀ t₁ : UInt64} {ev : Event} {own : X} (hlen : m.minLen ≤ d.length)
    (hlen' : m.minLen ≤ d'.length) (ht : t₀ < t₁) (hprobe : m.body c d t₀ = .ok (c.stamp t₀))
    (hreply : m.body (c.stamp t₀) d' t₁ =
      .ok { ((c.stamp t₀).stamp t₁).reply ev t₁ with own := own })
    (hgen : m.generated (c.stamp t₀) (.feedInputWithTs (some d') t₁) =
      [{ ev with latencyMs := ((c.stamp t₀).stamp t₁).latency t₁ }]) (htype : ev.type = type) :
    ¬ m.Measures type c d d' t₀ t₁ := by
  have hlt : t₀.toNat < t₁.toNat := UInt64.lt_iff_toNat_lt.1 ht
  have hset : t₁ ≠ 0 := fun hzero => by simp [hzero] at hlt
  rw [measures_iff hlen hlen' hprobe hreply hgen htype (enters_stamp_reply (c.stamp t₀) ev t₁ own),
    latency_stamp, if_pos hset]
  show ¬ 0 = t₁.toNat - t₀.toNat
  omega

end Probe

/-! ## The modules -/

open Lib

namespace Ping

open Probe (Role Event EventType Call)

/-- A requester does nothing with the probe that it sends. -/
theorem fed_of_echoRequest {c : Ctx} (hrole : c.role = .requester) {d : List UInt8}
    (hd : IsEchoRequest d) (ts : UInt64) : fed c d ts = c := by
  have hreply : ¬ IsEchoReply d := by
    intro hreply
    -- The packet has one type.
    rcases hd.2 with htype | htype
    · exact absurd (htype ▸ hreply.2) (by decide)
    · exact absurd (htype ▸ hreply.2) (by decide)
  rw [fed, if_neg fun h => hreply h.1, if_neg fun h => by cases hrole.symm.trans h.2]

theorem measures_iff {c : Ctx} (h : ping.Reachable c) (hrole : c.role = .requester)
    {d d' : List UInt8} (hd : IsEchoRequest d) (hd' : IsEchoReply d') (t₀ t₁ : UInt64) :
    ping.Measures .pingReply c d d' t₀ t₁ ↔ t₁.toNat - t₀.toNat = 5 := by
  have hprobe : feedBody c d t₀ = .ok c := by
    rw [feedBody_eq hd.1, fed_of_echoRequest hrole hd]
  have hreply : feedBody c d' t₁ =
      .ok (c.reply { type := .pingReply, seq := (be16At d' 6).toUInt32 } t₁) := by
    rw [feedBody_eq hd'.1, fed, if_pos ⟨hd', hrole⟩]
  have hgen : ping.generated c (.feedInputWithTs (some d') t₁) =
      [{ type := .pingReply, seq := (be16At d' 6).toUInt32, latencyMs := c.latency t₁ }] := by
    rw [makes_event]
    exact congrArg Option.toList (if_pos ⟨hd'.1, hd'.2, hrole⟩)
  exact Probe.measures_iff_of_untimed (m := ping) hd.1 hd'.1 (sendTs_of_requester h hrole) hprobe
    hreply hgen rfl

end Ping

namespace Arping

open Probe (Role Event EventType Call)

/-- A requester does nothing with the probe that it sends. -/
theorem fed_of_arpRequest {c : Ctx} (hrole : c.role = .requester) {d : List UInt8}
    (hd : IsArp 1 d) (ts : UInt64) : fed c d ts = c := by
  have hreply : ¬ IsArp 2 d := fun hreply =>
    absurd (hd.2.2.2.symm.trans hreply.2.2.2) (by decide)
  have hndp := not_isNdp hd.2.1 136
  rw [fed, if_neg fun h => hreply h.1, if_neg fun h => hndp h.1,
    if_neg fun h => by cases hrole.symm.trans h.2]

theorem inBounds_of_isArp {c : Ctx} {op : UInt8} {d : List UInt8} (hd : IsArp op d)
    (hlen : op = 2 → 28 ≤ d.length) : InBounds c d :=
  fun _ => ⟨fun hreply => hlen (hd.2.2.2.symm.trans hreply.2.2.2),
    fun hndp => absurd hndp (not_isNdp hd.2.1 136)⟩

theorem measures_iff {c : Ctx} (h : arping.Reachable c) (hrole : c.role = .requester)
    {d d' : List UInt8} (hd : IsArp 1 d) (hd' : IsArp 2 d') (hmac : 28 ≤ d'.length)
    (t₀ t₁ : UInt64) :
    arping.Measures .arpReply c d d' t₀ t₁ ↔ t₁.toNat - t₀.toNat = 5 := by
  have hlen : 14 ≤ d.length := (by decide : 14 ≤ 22).trans hd.1
  have hlen' : 14 ≤ d'.length := (by decide : 14 ≤ 22).trans hd'.1
  have hprobe : feedBody c d t₀ = .ok c := by
    rw [feedBody_eq hlen (inBounds_of_isArp hd fun hop => absurd hop (by decide)),
      fed_of_arpRequest hrole hd]
  have hreply : feedBody c d' t₁ =
      .ok (c.reply { type := .arpReply, srcMac := bytesOf 6 (d'.drop 22) } t₁) := by
    rw [feedBody_eq hlen' (inBounds_of_isArp hd' fun _ => hmac), fed, if_pos ⟨hd', hrole⟩]
  have hgen : arping.generated c (.feedInputWithTs (some d') t₁) =
      [{ type := .arpReply, srcMac := bytesOf 6 (d'.drop 22), latencyMs := c.latency t₁ }] := by
    have harp : arpEvent c d' t₁ =
        some { type := .arpReply, srcMac := bytesOf 6 (d'.drop 22), latencyMs := c.latency t₁ } :=
      if_pos ⟨hmac, hd'.2.1, hd'.2.2.1, hd'.2.2.2, hrole⟩
    rw [makes_event]
    show (packetEvent c d' t₁).toList = _
    rw [packetEvent, harp]
    rfl
  exact Probe.measures_iff_of_untimed (m := arping) hlen hlen' (sendTs_of_requester h hrole) hprobe
    hreply hgen rfl

end Arping

namespace Traceroute

open Probe (Role Event EventType Call)

/-- A requester's packets are not read behind their type. -/
theorem inBounds_of_requester {c : Ctx} (hrole : c.role = .requester) {d : List UInt8}
    (hlen : 20 < d.length) : InBounds c d :=
  ⟨by omega, fun _ hresponder => by cases hrole.symm.trans hresponder⟩

/-- A requester keeps the time of its probe, as it keeps that of any packet. -/
theorem fed_of_probe {c : Ctx} (hrole : c.role = .requester) {d : List UInt8} (hd : IsProbe d)
    (ts : UInt64) : fed c d ts = c.stamp ts := by
  have hreply : ¬ IsHopReply d := by
    intro hreply
    rw [IsHopReply, show d.getD 20 0 = 8 from hd] at hreply
    exact absurd hreply (by decide)
  rw [fed, if_neg fun h => hreply h.1, if_neg fun h => by cases hrole.symm.trans h.2]

theorem not_measures {c : Ctx} (hrole : c.role = .requester) {d d' : List UInt8}
    (hlen : 20 < d.length) (hd : IsProbe d) (hlen' : 20 < d'.length) (hd' : IsHopReply d')
    {t₀ t₁ : UInt64} (ht : t₀ < t₁) :
    ¬ traceroute.Measures .tracerouteHop c d d' t₀ t₁ := by
  have hrole' : (c.stamp t₀).role = .requester := hrole
  have hprobe : feedBody c d t₀ = .ok (c.stamp t₀) := by
    rw [feedBody_eq (Nat.le_of_lt hlen) (inBounds_of_requester hrole hlen), fed_of_probe hrole hd]
  have hreply := feedBody_eq (Nat.le_of_lt hlen') (inBounds_of_requester hrole' hlen') t₁
  rw [fed, if_pos ⟨hd', hrole'⟩] at hreply
  have hgen : traceroute.generated (c.stamp t₀) (.feedInputWithTs (some d') t₁) =
      [{ type := .tracerouteHop, seq := c.own.lastSeq,
         latencyMs := ((c.stamp t₀).stamp t₁).latency t₁ }] := by
    rw [makes_event]
    exact congrArg Option.toList (if_pos ⟨hlen', hd', hrole'⟩)
  exact Probe.not_measures_of_stamp (m := traceroute) (Nat.le_of_lt hlen) (Nat.le_of_lt hlen') ht
    hprobe hreply hgen rfl

end Traceroute

namespace Dnsdiag

open Probe (Role Event EventType Call)

/-- A query without an error code. -/
def IsQuery (d : List UInt8) : Prop :=
  12 ≤ d.length ∧ be16At d 2 &&& 0x8000 = 0 ∧ be16At d 2 &&& 0x000F = 0

instance (d : List UInt8) : Decidable (IsQuery d) :=
  inferInstanceAs (Decidable (_ ∧ _))

/-- A response without an error code. -/
def IsResponse (d : List UInt8) : Prop :=
  12 ≤ d.length ∧ be16At d 2 &&& 0x8000 ≠ 0 ∧ be16At d 2 &&& 0x000F = 0

instance (d : List UInt8) : Decidable (IsResponse d) :=
  inferInstanceAs (Decidable (_ ∧ _))

/-- A requester keeps the time of its query, as it keeps that of any message. -/
theorem fed_of_query {c : Ctx} (hrole : c.role = .requester) {d : List UInt8} (hd : IsQuery d)
    (ts : UInt64) : fed c d ts = c.stamp ts := by
  rw [fed, if_neg fun h => h.1 hd.2.2, if_neg fun h => h.1 hd.2.1,
    if_neg fun h => by cases hrole.symm.trans h]

theorem not_measures {c : Ctx} (hrole : c.role = .requester) {d d' : List UInt8}
    (hd : IsQuery d) (hd' : IsResponse d') {t₀ t₁ : UInt64} (ht : t₀ < t₁) :
    ¬ dnsdiag.Measures .dnsReply c d d' t₀ t₁ := by
  have hrole' : (c.stamp t₀).role = .requester := hrole
  have hprobe : feedBody c d t₀ = .ok (c.stamp t₀) := by
    rw [feedBody_eq hd.1, fed_of_query hrole hd]
  have hreply := feedBody_eq hd'.1 (c.stamp t₀) t₁
  rw [fed, if_neg fun h => h.1 hd'.2.2, if_pos ⟨hd'.2.1, hrole'⟩] at hreply
  have hgen : dnsdiag.generated (c.stamp t₀) (.feedInputWithTs (some d') t₁) =
      [{ type := .dnsReply, seq := c.own.lastSeq,
         latencyMs := ((c.stamp t₀).stamp t₁).latency t₁ }] := by
    have hpacket : packetEvent (c.stamp t₀) d' t₁ =
        some { type := .dnsReply, seq := c.own.lastSeq,
               latencyMs := ((c.stamp t₀).stamp t₁).latency t₁ } := by
      rw [packetEvent, if_pos ⟨hd'.1, hrole'⟩, if_neg (not_not_intro hd'.2.2), if_pos hd'.2.1]
      rfl
    rw [makes_event]
    exact congrArg Option.toList hpacket
  exact Probe.not_measures_of_stamp (m := dnsdiag) hd.1 hd'.1 ht hprobe hreply hgen rfl

end Dnsdiag

/-! ## The four modules -/

open Ping (ping)
open Arping (arping)
open Traceroute (traceroute)
open Dnsdiag (dnsdiag)

/-- Whatever has happened to a requester's context before: ping and arping measure the time between
a probe and its reply if it is 5, traceroute and dnsdiag never do. -/
theorem latency_measured_iff {pc : Ping.Ctx} {ac : Arping.Ctx} {tc : Traceroute.Ctx}
    {dc : Dnsdiag.Ctx} (hp : ping.Reachable pc) (ha : arping.Reachable ac)
    (hprole : pc.role = .requester) (harole : ac.role = .requester)
    (htrole : tc.role = .requester) (hdrole : dc.role = .requester) {t₀ t₁ : UInt64}
    (ht : t₀ < t₁) :
    (∀ d d', Ping.IsEchoRequest d → Ping.IsEchoReply d' →
      (ping.Measures .pingReply pc d d' t₀ t₁ ↔ t₁.toNat - t₀.toNat = 5)) ∧
    (∀ d d', Arping.IsArp 1 d → Arping.IsArp 2 d' → 28 ≤ d'.length →
      (arping.Measures .arpReply ac d d' t₀ t₁ ↔ t₁.toNat - t₀.toNat = 5)) ∧
    (∀ d d', 20 < d.length → Traceroute.IsProbe d → 20 < d'.length → Traceroute.IsHopReply d' →
      ¬ traceroute.Measures .tracerouteHop tc d d' t₀ t₁) ∧
    (∀ d d', Dnsdiag.IsQuery d → Dnsdiag.IsResponse d' →
      ¬ dnsdiag.Measures .dnsReply dc d d' t₀ t₁) := by
  refine ⟨?_, ?_, ?_, ?_⟩
  · exact fun d d' hd hd' => Ping.measures_iff hp hprole hd hd' t₀ t₁
  · exact fun d d' hd hd' hmac => Arping.measures_iff ha harole hd hd' hmac t₀ t₁
  · exact fun d d' hlen hd hlen' hd' => Traceroute.not_measures htrole hlen hd hlen' hd' ht
  · exact fun d d' hd hd' => Dnsdiag.not_measures hdrole hd hd' ht

theorem latency_measured_five :
    ping.Measures .pingReply (ping.create .requester) [8, 0, 0, 0, 0, 0, 0, 0]
      [0, 0, 0, 0, 0, 0, 0, 0] 1 6 := by
  have ht : (1 : UInt64) < 6 := by decide
  have hiff := @latency_measured_iff (ping.create .requester) (arping.create .requester)
    (traceroute.create .requester) (dnsdiag.create .requester) (.create .requester none)
    (.create .requester none) rfl rfl rfl rfl 1 6 ht
  exact (hiff.1 _ _ (by decide) (by decide)).2 rfl

/-- A reply that comes ten milliseconds after its probe is reported with five. -/
theorem latency_mismeasured :
    ping.Reachable (ping.create .requester) ∧ (ping.create .requester).role = .requester ∧
    Ping.IsEchoRequest [8, 0, 0, 0, 0, 0, 0, 0] ∧ Ping.IsEchoReply [0, 0, 0, 0, 0, 0, 0, 0] ∧
    ¬ ping.Measures .pingReply (ping.create .requester) [8, 0, 0, 0, 0, 0, 0, 0]
      [0, 0, 0, 0, 0, 0, 0, 0] 1 11 := by
  have hreachable : ping.Reachable (ping.create .requester) := .create .requester none
  refine ⟨hreachable, rfl, by decide, by decide, fun h => ?_⟩
  have hfive := (Ping.measures_iff hreachable rfl (by decide) (by decide) 1 11).1 h
  exact absurd hfive (by decide)

end Netdiag
