import Netdiag.Nfct.Decode

/-!
# Fields — which attribute decides a field of an event

The folds of `Decode` in closed form: each field of a tuple, and each field that `parse_ct_attrs`
assigns, is left with the value of the last attribute that carries it.  A message thus has one
original and one reply tuple that count, those of its last `CTA_TUPLE_ORIG` and `CTA_TUPLE_REPLY`.
-/

namespace Netdiag
namespace Nfct

open Lib

/-! ## Tuples -/

namespace Tuple

/-- A tuple after the attributes of an address nest. -/
def setIp (t : Tuple) (as : List Attr) : Tuple :=
  { t with
      srcIp := (lastAttr ctaIpV4Src 4 as).elim t.srcIp (be32At · 0)
      dstIp := (lastAttr ctaIpV4Dst 4 as).elim t.dstIp (be32At · 0)
      srcIp6 := (lastAttr ctaIpV6Src 16 as).elim t.srcIp6 (bytesOf 16)
      dstIp6 := (lastAttr ctaIpV6Dst 16 as).elim t.dstIp6 (bytesOf 16)
      hasIp := t.hasIp || ((lastAttr ctaIpV4Src 4 as).isSome || (lastAttr ctaIpV4Dst 4 as).isSome)
      hasIp6 :=
        t.hasIp6 || ((lastAttr ctaIpV6Src 16 as).isSome || (lastAttr ctaIpV6Dst 16 as).isSome) }

/-- A tuple after the attributes of a protocol nest. -/
def setProto (t : Tuple) (as : List Attr) : Tuple :=
  { t with
      proto := (lastAttr ctaProtoNum 1 as).elim t.proto (·.getD 0 0)
      srcPort := (lastAttr ctaProtoSrcPort 2 as).elim t.srcPort (be16At · 0)
      dstPort := (lastAttr ctaProtoDstPort 2 as).elim t.dstPort (be16At · 0)
      hasProto := t.hasProto || (lastAttr ctaProtoNum 1 as).isSome
      hasPorts := t.hasPorts ||
        ((lastAttr ctaProtoSrcPort 2 as).isSome || (lastAttr ctaProtoDstPort 2 as).isSome) }

theorem setIp_append (t : Tuple) (as bs : List Attr) :
    (t.setIp as).setIp bs = t.setIp (as ++ bs) := by
  simp only [setIp, lastAttr_append, elim_or, Option.isSome_or]
  congr 1 <;> grind

theorem setProto_append (t : Tuple) (as bs : List Attr) :
    (t.setProto as).setProto bs = t.setProto (as ++ bs) := by
  simp only [setProto, lastAttr_append, elim_or, Option.isSome_or]
  congr 1 <;> grind

theorem addIp_eq_setIp (t : Tuple) (a : Attr) : t.addIp a = t.setIp [a] := by
  simp only [addIp, setIp, lastAttr_single, ctaIpV4Src, ctaIpV4Dst, ctaIpV6Src, ctaIpV6Dst]
  split_ifs <;> simp_all

theorem addProto_eq_setProto (t : Tuple) (a : Attr) : t.addProto a = t.setProto [a] := by
  simp only [addProto, setProto, lastAttr_single, ctaProtoNum, ctaProtoSrcPort, ctaProtoDstPort]
  split_ifs <;> simp_all

theorem foldl_addIp (t : Tuple) (as : List Attr) : as.foldl addIp t = t.setIp as := by
  induction as generalizing t with
  | nil => simp [setIp]
  | cons a as ih => rw [List.foldl_cons, ih, addIp_eq_setIp, setIp_append, List.singleton_append]

theorem foldl_addProto (t : Tuple) (as : List Attr) : as.foldl addProto t = t.setProto as := by
  induction as generalizing t with
  | nil => simp [setProto]
  | cons a as ih =>
      rw [List.foldl_cons, ih, addProto_eq_setProto, setProto_append, List.singleton_append]

theorem foldl_add (t : Tuple) (as : List Attr) :
    as.foldl add t = (t.setIp (nested ctaTupleIp as)).setProto (nested ctaTupleProto as) := by
  induction as generalizing t with
  | nil => simp [nested, setIp, setProto]
  | cons a as ih =>
      have hcomm : ∀ (t : Tuple) (ps is : List Attr),
          (t.setProto ps).setIp is = (t.setIp is).setProto ps := fun _ _ _ => rfl
      rw [List.foldl_cons, ih, nested_cons, nested_cons, ← setIp_append, ← setProto_append]
      -- A nest is of one type, so the other half of the tuple is left as it was.
      by_cases hip : a.type = ctaTupleIp
      · have hproto : a.type ≠ ctaTupleProto := by
          rw [hip]
          decide
        rw [add, if_pos hip, if_pos hip, if_neg hproto, foldl_addIp]
        simp [setProto]
      · by_cases hproto : a.type = ctaTupleProto
        · rw [add, if_neg hip, if_pos hproto, if_neg hip, if_pos hproto, foldl_addProto, hcomm]
          simp [setIp]
        · rw [add, if_neg hip, if_neg hproto, if_neg hip, if_neg hproto]
          simp [setIp, setProto]

end Tuple

theorem tupleOf_eq (xs : List UInt8) :
    tupleOf xs = (({} : Tuple).setIp (nested ctaTupleIp (attrs xs))).setProto
      (nested ctaTupleProto (attrs xs)) :=
  Tuple.foldl_add {} (attrs xs)

/-! ## Conntrack attributes -/

/-- The tuple that counts, zero if there is none. -/
def lastTuple (type : UInt16) (as : List Attr) : Tuple :=
  (lastAttr type 0 as).elim {} tupleOf

/-- An event after the attributes that `parse_ct_attrs` reads into it right away. -/
def Event.setCt (ev : Event) (as : List Attr) : Event :=
  { ev with
      mark := (lastAttr ctaMark 4 as).elim ev.mark fun xs => (be32At xs 0).toUInt64
      zone := (lastAttr ctaZone 2 as).elim ev.zone fun xs => (be16At xs 0).toUInt32
      id := (lastAttr ctaId 4 as).elim ev.id (be32At · 0)
      status := (lastAttr ctaStatus 4 as).elim ev.status (be32At · 0)
      hasId := ev.hasId || (lastAttr ctaId 4 as).isSome
      hasStatus := ev.hasStatus || (lastAttr ctaStatus 4 as).isSome }

namespace CtVars

def set (v : CtVars) (as : List Attr) : CtVars :=
  { ev := v.ev.setCt as
    orig := (lastAttr ctaTupleOrig 0 as).elim v.orig tupleOf
    reply := (lastAttr ctaTupleReply 0 as).elim v.reply tupleOf }

theorem set_append (v : CtVars) (as bs : List Attr) : (v.set as).set bs = v.set (as ++ bs) := by
  simp only [set, Event.setCt, lastAttr_append, elim_or, Option.isSome_or]
  congr 2 <;> grind

theorem add_eq_set (v : CtVars) (a : Attr) : v.add a = v.set [a] := by
  simp only [add, set, Event.setCt, lastAttr_single, Nat.zero_le, and_true, ctaTupleOrig,
    ctaTupleReply, ctaMark, ctaZone, ctaId, ctaStatus]
  split_ifs <;> simp_all

theorem foldl_add (v : CtVars) (as : List Attr) : as.foldl add v = v.set as := by
  induction as generalizing v with
  | nil => simp [set, Event.setCt]
  | cons a as ih => rw [List.foldl_cons, ih, add_eq_set, set_append, List.singleton_append]

end CtVars

theorem ctEvent_eq (as : List Attr) (ev : Event) :
    ctEvent as ev =
      applyTuples (lastTuple ctaTupleOrig as) (lastTuple ctaTupleReply as) (ev.setCt as) := by
  rw [ctEvent, CtVars.foldl_add]
  rfl

/-! ## From tuples to an event -/

/-- The part of `parse_ct_attrs` after its loop, field by field.  The flag `is_ipv6` is shared by
both directions: the reply sets it and never clears it. -/
theorem applyTuples_eq (orig reply : Tuple) (ev : Event) :
    applyTuples orig reply ev =
      { ev with
          protocol :=
            if orig.hasProto then orig.proto
            else if reply.hasProto then reply.proto
            else ev.protocol
          lanSrcIp := if orig.hasIp then orig.srcIp else ev.lanSrcIp
          lanDstIp := if orig.hasIp then orig.dstIp else ev.lanDstIp
          lanSrcIp6 := if !orig.hasIp && orig.hasIp6 then orig.srcIp6 else ev.lanSrcIp6
          lanDstIp6 := if !orig.hasIp && orig.hasIp6 then orig.dstIp6 else ev.lanDstIp6
          lanSrcPort := if orig.hasPorts then orig.srcPort else ev.lanSrcPort
          lanDstPort := if orig.hasPorts then orig.dstPort else ev.lanDstPort
          wanSrcIp := if reply.hasIp then reply.dstIp else ev.wanSrcIp
          wanDstIp := if reply.hasIp then reply.srcIp else ev.wanDstIp
          wanSrcIp6 := if !reply.hasIp && reply.hasIp6 then reply.dstIp6 else ev.wanSrcIp6
          wanDstIp6 := if !reply.hasIp && reply.hasIp6 then reply.srcIp6 else ev.wanDstIp6
          wanSrcPort := if reply.hasPorts then reply.dstPort else ev.wanSrcPort
          wanDstPort := if reply.hasPorts then reply.srcPort else ev.wanDstPort
          hasLan := (orig.hasIp || orig.hasIp6) || ev.hasLan
          hasWan := (reply.hasIp || reply.hasIp6) || ev.hasWan
          isIpv6 :=
            (!reply.hasIp && reply.hasIp6) ||
              (!orig.hasIp && (orig.hasIp6 || ev.isIpv6)) } := by
  rcases orig with ⟨_, _, _, _, _, _, _, hasIp, hasIp6, hasProto, hasPorts⟩
  rcases reply with ⟨_, _, _, _, _, _, _, hasIp', hasIp6', hasProto', hasPorts'⟩
  -- Only the flags of the tuples are looked at.
  cases hasIp <;> cases hasIp6 <;> cases hasProto <;> cases hasPorts <;>
    cases hasIp' <;> cases hasIp6' <;> cases hasProto' <;> cases hasPorts' <;> rfl

end Nfct
end Netdiag
