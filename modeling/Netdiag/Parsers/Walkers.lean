import Netdiag.Netlink.Segments
import Netdiag.Nfct.Decode
import Netdiag.Nl80211.Decode

/-!
# Walkers — the seven loops over attributes cut a nest alike

The loops were written one by one.  Those of the conntrack parser keep `plen` in 16 bits and round
a length up in place, three of them get the length of the nest in 16 bits as well; those of the
station parser do all this with `size_t` and `NLA_ALIGN`.  `tupleHead`, `ctHead` and `attrHead`,
which the parsers run, are the turns of these loops up to the test of the type, and
`walkers_segment_alike` says that they all come to the attributes of the reference decoder.
-/

namespace Netdiag

open Lib

/-! ## Conntrack attributes -/

namespace Nfct

variable {p : Platform} {D xs : List UInt8} {data : Nat}

/-- The loops that get the length of the nest in 16 bits. -/
theorem tupleHead_segments {σ : Type} {body : σ → UInt16 → UInt16 → Nat → Except Fault σ}
    {step : σ → Attr → σ} {len : UInt16} (hlen : len.toNat = xs.length) (hat : At D data xs)
    (hbody : ActsAs UInt16.toNat D body step) (s : σ) :
    Segments p UInt16.toNat D (tupleHead p D data len) body s (tlvs xs) (xs.length / 4)
      (fun b => nlaWalk p len.toNat (tupleHead p D data len) body s = .ok b) := by
  rw [tupleHead, hlen]
  exact segments_of hat (nest_fits (hlen ▸ len.toNat_lt)) rightVars hbody s (fun _ h => h)

theorem ctHead_segments (hat : At D data xs) (hfit : xs.length + 2 ^ 16 ≤ p.sizeMod) (ev : Event) :
    Segments p UInt16.toNat D (ctHead p D data xs.length) (ctAttr p D) { ev := ev } (tlvs xs)
      (xs.length / 4)
      (fun v => parseCtAttrs p D data xs.length ev = .ok (applyTuples v.orig v.reply v.ev)) := by
  refine segments_of hat hfit rightVars ctAttr_acts _ ?_
  intro v hwalk
  rw [parseCtAttrs, ctHead, hwalk]
  rfl

end Nfct

/-! ## Station attributes -/

namespace Nl80211

theorem attrHead_segments {σ : Type} {p : Platform} {D xs : List UInt8} {data : Nat}
    {body : σ → UInt16 → Nat → Nat → Except Fault σ} {step : σ → Attr → σ} (hat : At D data xs)
    (hfit : xs.length + 2 ^ 16 ≤ p.sizeMod) (hbody : ActsAs id D body step) (s : σ) :
    Segments p id D (attrHead p D data xs.length) body s (tlvs xs) (xs.length / 4)
      (fun b => nlaWalk p xs.length (attrHead p D data xs.length) body s = .ok b) :=
  segments_of hat hfit rightVars hbody s (fun _ h => h)

end Nl80211

/-! ## All seven -/

/-- Over the same bytes each of the seven loops comes to the attributes of the reference decoder, in
at most a quarter as many iterations as there are bytes, and returns what it has made of them. -/
theorem walkers_segment_alike (p : Platform) {D xs : List UInt8} {data : Nat} (hat : At D data xs)
    (hlen : xs.length ≤ 65535) (t : Nfct.Tuple) (ev : Nfct.Event) (ev' : Nl80211.Event) :
    Segments p UInt16.toNat D (Nfct.tupleHead p D data (UInt16.ofNat xs.length))
      (Nfct.tupleIpAttr D) t (tlvs xs) (xs.length / 4)
      (fun b => Nfct.parseTupleIp p D data (UInt16.ofNat xs.length) t = .ok b) ∧
    Segments p UInt16.toNat D (Nfct.tupleHead p D data (UInt16.ofNat xs.length))
      (Nfct.tupleProtoAttr D) t (tlvs xs) (xs.length / 4)
      (fun b => Nfct.parseTupleProto p D data (UInt16.ofNat xs.length) t = .ok b) ∧
    Segments p UInt16.toNat D (Nfct.tupleHead p D data (UInt16.ofNat xs.length))
      (Nfct.tupleAttr p D) {} (tlvs xs) (xs.length / 4)
      (fun b => Nfct.parseTuple p D data (UInt16.ofNat xs.length) = .ok b) ∧
    Segments p UInt16.toNat D (Nfct.ctHead p D data xs.length) (Nfct.ctAttr p D) { ev := ev }
      (tlvs xs) (xs.length / 4)
      (fun v => Nfct.parseCtAttrs p D data xs.length ev =
        .ok (Nfct.applyTuples v.orig v.reply v.ev)) ∧
    Segments p id D (Nl80211.attrHead p D data xs.length) (Nl80211.rateInfoAttr D) ev'
      (tlvs xs) (xs.length / 4)
      (fun b => Nl80211.parseRateInfo p D data xs.length ev' = .ok b) ∧
    Segments p id D (Nl80211.attrHead p D data xs.length) (Nl80211.staInfoAttr p D) ev'
      (tlvs xs) (xs.length / 4)
      (fun b => Nl80211.parseStaInfo p D data xs.length ev' = .ok b) ∧
    Segments p id D (Nl80211.attrHead p D data xs.length) (Nl80211.topAttr p D) ev'
      (tlvs xs) (xs.length / 4)
      (fun b => Nl80211.parseTopAttrs p D data xs.length ev' = .ok b) ∧
    InOrder xs (tlvs xs) := by
  have h16 : (UInt16.ofNat xs.length).toNat = xs.length :=
    UInt16.toNat_ofNat_of_lt' (Nat.lt_succ_of_le hlen)
  have hfit : xs.length + 2 ^ 16 ≤ p.sizeMod := nest_fits (Nat.lt_succ_of_le hlen)
  refine ⟨?_, ?_, ?_, Nfct.ctHead_segments hat hfit ev, ?_, ?_, ?_, inOrder_tlvs xs⟩
  · exact Nfct.tupleHead_segments h16 hat Nfct.tupleIpAttr_acts t
  · exact Nfct.tupleHead_segments h16 hat Nfct.tupleProtoAttr_acts t
  · exact Nfct.tupleHead_segments h16 hat Nfct.tupleAttr_acts {}
  · exact Nl80211.attrHead_segments hat hfit Nl80211.rateInfoAttr_acts ev'
  · exact Nl80211.attrHead_segments hat hfit Nl80211.staInfoAttr_acts ev'
  · exact Nl80211.attrHead_segments hat hfit Nl80211.topAttr_acts ev'

/-- Two attributes, the first one with a flag in its type and with padding, and half a header. -/
def flaggedNest : List UInt8 :=
  [5, 0, 1, 0x80, 6, 0, 0, 0, 8, 0, 2, 0, 192, 0, 2, 1, 4, 0]

theorem walkers_segment_alike_flaggedNest :
    tlvs flaggedNest = [{ off := 0, type := 1, payload := [6] },
      { off := 8, type := 2, payload := [192, 0, 2, 1] }] ∧
    Segments .lp64 UInt16.toNat flaggedNest (Nfct.tupleHead .lp64 flaggedNest 0 18)
      (Nfct.tupleProtoAttr flaggedNest) {} (tlvs flaggedNest) 4
      (fun b => Nfct.parseTupleProto .lp64 flaggedNest 0 18 {} = .ok b) ∧
    Segments .lp64 id flaggedNest (Nl80211.attrHead .lp64 flaggedNest 0 18)
      (Nl80211.rateInfoAttr flaggedNest) Nl80211.stationInit (tlvs flaggedNest) 4
      (fun b => Nl80211.parseRateInfo .lp64 flaggedNest 0 18 Nl80211.stationInit = .ok b) ∧
    InOrder flaggedNest (tlvs flaggedNest) := by
  have hall := walkers_segment_alike .lp64 (At.whole flaggedNest) (by decide) {}
    (Nfct.eventOfHeader 0 0) Nl80211.stationInit
  obtain ⟨_, hproto, _, _, hrate, _, _, horder⟩ := hall
  exact ⟨by decide, hproto, hrate, horder⟩

end Netdiag
