import Netdiag.Parsers.Ilp32
import Netdiag.Parsers.Inbox
import Netdiag.Probe.Bwdiag

/-!
# Targets — what holds on a host holds on the 32-bit targets

The library is tested on hosts and runs on routers, whose `size_t` has 32 bits.  Sums wrap there if
a header claims a length that runs around the address space; if none does where a message is looked
for, the loops of both parsers do on both platforms the same.  So the contexts are the same inboxes
(`Parsers/Inbox`) on both, and no caller can tell the platforms apart (`targets_agree`).
-/

namespace Netdiag

open Lib

/-! ## Portable bytes -/

/-- No header where a message is looked for claims more bytes than there are addresses behind it.
There is room for one more attribute behind the buffer. -/
structure Portable (D : List UInt8) : Prop where
  length : D.length + 2 ^ 16 ≤ 2 ^ 32
  claims : ∀ off, msgFraming.Offset D off → off + 16 ≤ D.length →
    16 ≤ (nlmsgLen (D.drop off)).toNat → off + (nlmsgLen (D.drop off)).toNat < 2 ^ 32

theorem Portable.fits64 {D : List UInt8} (h : Portable D) : Fits64 D := by
  have hlen := h.length
  rw [Fits64]
  omega

theorem Portable.not_endless {D : List UInt8} (h : Portable D) : ¬ Endless D := by
  rw [not_endless_iff]
  intro f hf
  have hlen := h.length
  have hle := length_le_of_mem_frames hf
  rw [maxMsg]
  omega

theorem Portable.le_maxAttrs {D : List UInt8} (h : Portable D) : D.length ≤ maxAttrs := by
  have hlen := h.length
  rw [maxAttrs]
  omega

theorem Portable.lt_sizeMod {D : List UInt8} (h : Portable D) :
    D.length < Platform.ilp32.sizeMod := by
  have hlen := h.length
  show D.length < 2 ^ 32
  omega

theorem Portable.size_le {D : List UInt8} (h : Portable D) {off n : Nat}
    (hsome : msgFraming.size (D.drop off) = some n) : n ≤ maxAttrs := by
  have hend := Framing.add_size_le hsome
  exact (by omega : n ≤ D.length).trans h.le_maxAttrs

/-- Buffers of complete messages, as the kernel hands them over, are portable. -/
theorem portable_of_padded {ms : List (List UInt8)} {D : List UInt8}
    (hD : msgFraming.Padded ms D) (hlen : D.length + 2 ^ 16 ≤ 2 ^ 32) : Portable D where
  length := hlen
  claims := by
    intro off hoff hguard _
    have hend := claims_of_padded hD hoff hguard
    omega

/-! ## The loops -/

section Loops

variable {σ : Type} {D : List UInt8} {turn : Nat × σ → Except Fault (Turn (Nat × σ) σ)}
  {hands : Nat → Nat → Nat → Prop} {header : Nat} {attrsReturn : Nat → Nat → Prop}
  {receive : σ → List UInt8 → σ}

/-- A loop over portable bytes receives the messages in order, as it does on a host. -/
theorem Walk32.exec_eq (h : Walk32 D turn hands header attrsReturn) (hD : Portable D)
    (hreceives : ∀ off n c, msgFraming.size (D.drop off) = some n →
      turn (off, c) = .ok (.again (Platform.ilp32.add off (nlaAlign (nlmsgLen (D.drop off))).toNat,
        receive c ((D.drop off).take n)))) (c : σ) :
    Loop.exec turn .stuck (D.length + 2) (0, c) = .ok ((frames D).foldl receive c) := by
  have hwrap : ∀ {off}, msgFraming.Offset D off → NoWrap D header off :=
    fun hoff => (noWrap_iff_of_small hD.le_maxAttrs h.header_bounds.2 hoff).2 (hD.claims _ hoff)
  -- At every offset where a message is looked for, the turn is that of a host.
  have hrun := Framing.run_eq_foldl_split D receive
    (fun off c hoff hnone => h.turn_of_none (hwrap hoff) hnone)
    (fun off c n hoff hsome => by
      rw [hreceives off n c hsome, next_of_fit hsome ((hwrap hoff).stride n hsome)])
    .start (s := c) (by omega : D.length - 0 < D.length + 2)
  rw [List.drop_zero] at hrun
  exact Loop.exec_of_run hrun

end Loops

/-! ## The two parsers -/

namespace Nfct

theorem parseNetlink_of_portable {D : List UInt8} (hD : Portable D) (c : Ctx) :
    parseNetlink .ilp32 D c = parseNetlink .lp64 D c := by
  rw [parseNetlink, parseNetlink, (netlinkWalk32 hD.lt_sizeMod).exec_eq hD ?_,
    (netlinkWalk hD.fits64).exec_eq (not_endless_iff.1 hD.not_endless)]
  intro off n c hsome
  exact netlinkTurn_of_some hD.lt_sizeMod hsome
    (fun _ ev => parseCtAttrs_msg hsome (attrs_fit (hD.size_le hsome)) ev) c

theorem feedInput_of_portable {D : List UInt8} (hD : Portable D) (c : Ctx) :
    feedInput .ilp32 (some c) (some D) = feedInput .lp64 (some c) (some D) := by
  by_cases hempty : D.length = 0
  · rw [feedInput, if_pos hempty, feedInput, if_pos hempty]
  · by_cases hsynth : Synthetic D
    · rw [feedInput_of_synthetic hsynth, feedInput_of_synthetic hsynth]
    · rw [feedInput_of_not_synthetic hempty hsynth, feedInput_of_not_synthetic hempty hsynth,
        parseNetlink_of_portable hD]

theorem parser_reads32 : (parser .ilp32).Reads reading Config.eventQueueSize Portable where
  create := buffer_createWithConfig
  fed hD := (feedInput_of_portable hD _).trans (feedInput_read hD.fits64 _)
  null _ := rfl
  reset := parser_reads.reset

end Nfct

namespace Nl80211

theorem parseNl80211Messages_of_portable {D : List UInt8} (hD : Portable D) (c : Ctx) :
    parseNl80211Messages .ilp32 D c = parseNl80211Messages .lp64 D c := by
  have hlen := hD.length
  rw [parseNl80211Messages_eq, parseNl80211Messages_eq]
  by_cases hbare : Bare D
  · -- The whole buffer is one stream of attributes.
    have hmod : Platform.lp64.sizeMod = 2 ^ 64 := rfl
    rw [if_pos hbare, if_pos hbare, parseTopAttrs_eq (p := .ilp32) stationInit (At.whole D) hlen,
      parseTopAttrs_eq stationInit (At.whole D) (by omega)]
  · rw [if_neg hbare, if_neg hbare, (messagesWalk32 hD.lt_sizeMod).exec_eq hD ?_,
      (messagesWalk hD.fits64).exec_eq (not_endless_iff.1 hD.not_endless)]
    intro off n c hsome
    exact messagesTurn_of_some hD.lt_sizeMod hsome
      (fun _ => parseTopAttrs_msg hsome (attrs_fit (hD.size_le hsome))) c

theorem parseFeedInput_of_portable {D : List UInt8} (hD : Portable D) (c : Ctx) :
    parseFeedInput .ilp32 (some c) (some D) = parseFeedInput .lp64 (some c) (some D) := by
  by_cases hempty : D.length = 0
  · rw [parseFeedInput, if_pos hempty, parseFeedInput, if_pos hempty]
  · by_cases hsynth : Synthetic D
    · rw [parseFeedInput_of_synthetic hsynth, parseFeedInput_of_synthetic hsynth]
    · rw [parseFeedInput_of_not_synthetic hempty hsynth,
        parseFeedInput_of_not_synthetic hempty hsynth, parseNl80211Messages_of_portable hD]

theorem parser_reads32 : (parser .ilp32).Reads reading Config.eventQueueSize Portable where
  create := buffer_parseCreateWithConfig
  fed hD := (parseFeedInput_of_portable hD _).trans (parseFeedInput_read hD.fits64 _)
  null _ := rfl
  reset := parser_reads.reset

end Nl80211

/-! ## The two platforms -/

/-- No caller that feeds portable bytes can tell the platforms apart, whatever calls are made. -/
def Parser.SameOnTargets {R E C : Type} (P : Platform → Parser R E C) : Prop :=
  ∀ role config calls, (∀ D, .feedInput (some D) ∈ calls → Portable D) →
    observe (P .ilp32).step (some ((P .ilp32).createWithConfig role config)) calls =
      observe (P .lp64).step (some ((P .lp64).createWithConfig role config)) calls

theorem Parser.sameOnTargets_of_reads {R E C : Type} {P : Platform → Parser R E C}
    {r : Reading E} {size : C → Nat} (h32 : (P .ilp32).Reads r size Portable)
    (h64 : (P .lp64).Reads r size Fits64) : Parser.SameOnTargets P := by
  intro role config calls hportable
  rw [h32.isInbox role config calls hportable,
    h64.isInbox role config calls fun D hD => (hportable D hD).fits64]

/-! ## Bandwidth samples -/

namespace Bwdiag

open Probe (Call Role Config)

/-- The packet is short enough for a thousand times its length. -/
def Small (call : Call) : Prop :=
  ∀ d ts, call.Feeds d ts → d.length * 1000 < 2 ^ 32

theorem feedInputWithTs_of_small {d : List UInt8} (h : d.length * 1000 < 2 ^ 32)
    (ctx : Option Ctx) (ts : UInt64) :
    feedInputWithTs .ilp32 ctx (some d) ts = feedInputWithTs .lp64 ctx (some d) ts := by
  have hfit : ∀ p : Platform, d.length * 1000 % p.sizeMod = d.length * 1000 :=
    fun p => Nat.mod_eq_of_lt (h.trans_le p.le_sizeMod)
  cases ctx with
  | none => rfl
  | some c => rw [feedInputWithTs, feedInputWithTs, sample, sample, hfit, hfit]

theorem step_of_small {call : Call} (h : Small call) (ctx : Option Ctx) :
    step .ilp32 ctx call = step .lp64 ctx call := by
  cases call with
  | feedInput d =>
      cases d with
      | none => cases ctx <;> rfl
      | some d =>
          rw [step, step, feedInput, feedInput, feedInputWithTs_of_small (h d 0 (.inr ⟨rfl, rfl⟩))]
  | feedInputWithTs d ts =>
      cases d with
      | none => cases ctx <;> rfl
      | some d => rw [step, step, feedInputWithTs_of_small (h d ts (.inl rfl))]
  | process ts => rfl
  | nextEvent e => rfl
  | getStats s => rfl
  | reset => rfl

/-- No caller whose packets are small can tell the platforms apart. -/
def SameOnTargets : Prop :=
  ∀ role config calls, (∀ call ∈ calls, Small call) →
    observe (step .ilp32) (some (createWithConfig role config)) calls =
      observe (step .lp64) (some (createWithConfig role config)) calls

theorem sameOnTargets : SameOnTargets := by
  intro role config calls hsmall
  refine observe_eq_of_mem (R := Eq) ?_ rfl
  rintro call hcall ctx _ rfl
  rw [step_of_small (hsmall call hcall)]
  exact .refl (fun _ => ⟨rfl, rfl⟩) _

end Bwdiag

/-- The three modules in which `size_t` matters do the same on both platforms as long as they are
fed portable bytes, or packets whose length fits a thousand times, and complete messages are
portable. -/
theorem targets_agree :
    Parser.SameOnTargets Nfct.parser ∧ Parser.SameOnTargets Nl80211.parser ∧
    Bwdiag.SameOnTargets ∧
    ∀ ms D, msgFraming.Padded ms D → D.length + 2 ^ 16 ≤ 2 ^ 32 → Portable D :=
  ⟨Parser.sameOnTargets_of_reads Nfct.parser_reads32 Nfct.parser_reads,
    Parser.sameOnTargets_of_reads Nl80211.parser_reads32 Nl80211.parser_reads,
    Bwdiag.sameOnTargets, fun _ _ => portable_of_padded⟩

end Netdiag
