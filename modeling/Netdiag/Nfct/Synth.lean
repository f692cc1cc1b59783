import Netdiag.Nfct.Encode

/-!
# Synth — the synthetic frame and the message of one record

A NAT record can be fed as a synthetic frame of 32 bytes or as a conntrack message.  The two ways
in give the same event for a connection that was created or changed, and never the same for one
that was destroyed, where only the message sets `is_destroy` (`firstEvent_agrees_iff`).
-/

namespace Netdiag
namespace Nfct

open Lib

/-! ## Records and their two encodings -/

inductive NatKind
  | new
  | update
  | destroy
  deriving DecidableEq, Repr

structure NatRec where
  kind : NatKind
  protocol : UInt8
  lanSrcIp : UInt32
  lanSrcPort : UInt16
  lanDstIp : UInt32
  lanDstPort : UInt16
  wanSrcIp : UInt32
  wanSrcPort : UInt16
  wanDstIp : UInt32
  wanDstPort : UInt16

/-- The byte for the kind in a synthetic frame. -/
def NatKind.byte : NatKind → UInt8
  | new => 1
  | update => 2
  | destroy => 3

def synthFrame (r : NatRec) : List UInt8 :=
  wr32Be synthMagic ++ ([r.kind.byte, r.protocol, 0, 0] ++
    (wr32Be r.lanSrcIp ++ (wr16Be r.lanSrcPort ++ (wr32Be r.lanDstIp ++ (wr16Be r.lanDstPort ++
      (wr32Be r.wanSrcIp ++ (wr16Be r.wanSrcPort ++ (wr32Be r.wanDstIp ++
        wr16Be r.wanDstPort))))))))

/-- The conntrack record: the original direction is LAN, the reply WAN with its ends swapped. -/
def NatRec.toCt (r : NatRec) : CtRec UInt32 where
  orig :=
    { src := r.lanSrcIp, dst := r.lanDstIp, sport := r.lanSrcPort, dport := r.lanDstPort,
      proto := r.protocol }
  reply :=
    { src := r.wanDstIp, dst := r.wanSrcIp, sport := r.wanDstPort, dport := r.wanSrcPort,
      proto := r.protocol }

/-- The headers of messages of the kind: `NEW` with `NLM_F_CREATE`, `NEW` without it but with
`0x100`, and `DELETE`. -/
def NatKind.IsHeader (h : MsgHeader) : NatKind → Prop
  | new => h.nlType = 0x0100 ∧ h.nlFlags &&& 0x400 ≠ 0
  | update => h.nlType = 0x0100 ∧ h.nlFlags &&& 0x400 = 0 ∧ h.nlFlags &&& 0x100 ≠ 0
  | destroy => h.nlType = 0x0102

/-! ## Their events -/

def NatKind.type : NatKind → EventType
  | new => .eventNew
  | update => .eventUpdate
  | destroy => .eventDestroy

def NatRec.event (r : NatRec) (isDestroy : Bool) : Event :=
  { type := r.kind.type
    protocol := r.protocol
    lanSrcIp := r.lanSrcIp
    lanSrcPort := r.lanSrcPort
    lanDstIp := r.lanDstIp
    lanDstPort := r.lanDstPort
    wanSrcIp := r.wanSrcIp
    wanSrcPort := r.wanSrcPort
    wanDstIp := r.wanDstIp
    wanDstPort := r.wanDstPort
    hasLan := true
    hasWan := true
    isDestroy := isDestroy }

theorem synthetic_synthFrame (r : NatRec) : Synthetic (synthFrame r) :=
  ⟨Nat.le_refl 32, be32_wr32Be synthMagic⟩

theorem synthEvent_synthFrame (r : NatRec) : synthEvent (synthFrame r) = r.event false := by
  have hwords : be32At (synthFrame r) 8 = r.lanSrcIp ∧ be32At (synthFrame r) 14 = r.lanDstIp ∧
      be32At (synthFrame r) 20 = r.wanSrcIp ∧ be32At (synthFrame r) 26 = r.wanDstIp :=
    ⟨be32_wr32Be _, be32_wr32Be _, be32_wr32Be _, be32_wr32Be _⟩
  have hports : be16At (synthFrame r) 12 = r.lanSrcPort ∧ be16At (synthFrame r) 18 = r.lanDstPort ∧
      be16At (synthFrame r) 24 = r.wanSrcPort ∧ be16At (synthFrame r) 30 = r.wanDstPort :=
    ⟨be16_wr16Be _, be16_wr16Be _, be16_wr16Be _, be16_wr16Be _⟩
  have hkind : (synthFrame r).getD 4 0 = r.kind.byte := rfl
  have hproto : (synthFrame r).getD 5 0 = r.protocol := rfl
  rw [synthEvent, NatRec.event, hkind, hproto, hwords.1, hwords.2.1, hwords.2.2.1, hwords.2.2.2,
    hports.1, hports.2.1, hports.2.2.1, hports.2.2.2]
  cases r.kind <;> rfl

theorem event4_toCt (r : NatRec) {h : MsgHeader} (hh : r.kind.IsHeader h) :
    r.toCt.event4 h = r.event (decide (r.kind = .destroy)) := by
  rw [CtRec.event4, NatRec.event]
  -- The kind of the record decides what the type and the flags of the header say.
  cases hkind : r.kind with
  | new =>
      rw [hkind] at hh
      rcases hh with ⟨htype, hcreate⟩
      have hheader : eventOfHeader h.nlType h.nlFlags = { type := .eventNew } := by
        rw [htype]
        exact if_pos hcreate
      rw [hheader]
      rfl
  | update =>
      rw [hkind] at hh
      rcases hh with ⟨htype, hcreate, hreplace⟩
      have hheader : eventOfHeader h.nlType h.nlFlags = { type := .eventUpdate } := by
        rw [htype]
        exact (if_neg (not_not.2 hcreate)).trans (if_pos hreplace)
      rw [hheader]
      rfl
  | destroy =>
      rw [hkind] at hh
      have hheader : eventOfHeader h.nlType h.nlFlags =
          { type := .eventDestroy, isDestroy := true } := by
        rw [show h.nlType = 0x0102 from hh]
        rfl
      rw [hheader]
      rfl

/-! ## Feeding them -/

/-- The buffer is fed to the context, and `nfct_next_event` returns the event. -/
def FirstEvent (p : Platform) (c : Ctx) (D : List UInt8) (ev : Event) : Prop :=
  ∃ c₁, feedInput p (some c) (some D) = .ok (0, some c₁) ∧
    ∀ e, ∃ c₂, nextEvent (some c₁) (some e) = (1, some c₂, some ev)

theorem firstEvent_iff {p : Platform} {c : Ctx} {D : List UInt8} {ev : Event}
    (hempty : c.queued = [])
    (hfeed : feedInput p (some c) (some D) = .ok (0, some (c.pushAll [ev])))
    (ev' : Event) : FirstEvent p c D ev' ↔ ev' = ev := by
  have hroom : [ev].take c.free = [ev] := by
    have hpos := c.qsz_pos
    refine List.take_of_length_le ?_
    rw [QueueCtx.free, hempty]
    exact hpos
  have hqueued : (c.pushAll [ev]).queued = [ev] := by
    rw [QueueCtx.queued_pushAll, hempty, hroom, List.nil_append]
  constructor
  · rintro ⟨c₁, hfed, hnext⟩
    rw [hfeed] at hfed
    cases hfed
    -- What the event holds before the call does not matter.
    rcases hnext {} with ⟨c₂, hnext⟩
    rcases QueueCtx.next_of_cons hqueued {} with ⟨c₃, hfront, _, _⟩
    cases hfront.symm.trans hnext
    rfl
  · rintro rfl
    refine ⟨_, hfeed, ?_⟩
    intro e
    rcases QueueCtx.next_of_cons hqueued e with ⟨c₂, hfront, _, _⟩
    exact ⟨c₂, hfront⟩

/-- The frame and the message of a record give the same event exactly if the record is not that of
a destroyed connection. -/
theorem firstEvent_agrees_iff (p : Platform) (role role' : Role) (config config' : Option Config)
    (r : NatRec) {h : MsgHeader} (hh : r.kind.IsHeader h) {D : List UInt8}
    (hmsg : IsCtMessage ipv4 r.toCt h D) (hlen : D.length < 0x5443464E) :
    (∃ ev, FirstEvent p (createWithConfig role config) (synthFrame r) ev ∧
      FirstEvent p (createWithConfig role' config') D ev) ↔ r.kind ≠ .destroy := by
  have hsynth := feedInput_of_synthetic (synthetic_synthFrame r) p (createWithConfig role config)
  have hct := feedInput_of_isCtMessage hmsg hlen p (createWithConfig role' config')
  rw [synthEvent_synthFrame] at hsynth
  rw [frameEvent_ipv4 hmsg, event4_toCt r hh] at hct
  constructor
  · -- The two events would be the same one with and without `is_destroy`.
    rintro ⟨ev, hfirst, hsecond⟩ hkind
    rw [firstEvent_iff (queued_createWithConfig role config) hsynth] at hfirst
    rw [firstEvent_iff (queued_createWithConfig role' config') hct, hkind] at hsecond
    have hflag := congrArg Event.isDestroy (hfirst.symm.trans hsecond)
    cases hflag
  · -- Neither way in sets the flag for the other two kinds.
    intro hkind
    refine ⟨r.event false, ?_, ?_⟩
    · exact (firstEvent_iff (queued_createWithConfig role config) hsynth _).2 rfl
    · refine (firstEvent_iff (queued_createWithConfig role' config') hct _).2 ?_
      rw [decide_eq_false hkind]

/-- A connection of `192.168.1.50` through `203.0.113.9`. -/
def natRec (kind : NatKind) : NatRec where
  kind := kind
  protocol := 6
  lanSrcIp := 0xC0A80132
  lanSrcPort := 12345
  lanDstIp := 0x08080808
  lanDstPort := 53
  wanSrcIp := 0xCB007109
  wanSrcPort := 54321
  wanDstIp := 0x08080808
  wanDstPort := 53

/-- The header of a `DELETE` message. -/
def deleteHeader : MsgHeader :=
  { newHeader with nlType := 0x0102 }

theorem firstEvent_agrees_new :
    ∃ ev, FirstEvent .lp64 (create .collector) (synthFrame (natRec .new)) ev ∧
      FirstEvent .lp64 (create .collector)
        (putCt ipv4 (natRec .new).toCt { newHeader with nlFlags := 0x400 }) ev :=
  (firstEvent_agrees_iff .lp64 .collector .collector none none (natRec .new)
    (h := { newHeader with nlFlags := 0x400 }) ⟨rfl, by decide⟩ (isCtMessage_putCt _ _)
    (length_putCt_lt _ _)).2 (by decide)

/-- The event of the frame has `is_destroy = 0`, that of the message `is_destroy = 1`. -/
theorem firstEvent_differs_destroy :
    ¬ ∃ ev, FirstEvent .lp64 (create .collector) (synthFrame (natRec .destroy)) ev ∧
      FirstEvent .lp64 (create .collector) (putCt ipv4 (natRec .destroy).toCt deleteHeader) ev := by
  rintro ⟨ev, hfirst, hsecond⟩
  have hmsg : IsCtMessage ipv4 (natRec .destroy).toCt deleteHeader _ := isCtMessage_putCt _ _
  have hsynth := feedInput_of_synthetic (synthetic_synthFrame (natRec .destroy)) .lp64
    (create .collector)
  have hct := feedInput_of_isCtMessage hmsg (length_putCt_lt _ _) .lp64 (create .collector)
  rw [frameEvent_ipv4 hmsg] at hct
  have hempty := queued_createWithConfig .collector none
  have hfirst := (firstEvent_iff hempty hsynth ev).1 hfirst
  have hsecond := (firstEvent_iff hempty hct ev).1 hsecond
  have hflag := congrArg Event.isDestroy (hfirst.symm.trans hsecond)
  cases hflag

end Nfct
end Netdiag
