import Mathlib.Data.List.Chain
import Netdiag.Netlink.Attr

/-!
# Segments — where the loops over attributes cut a nest

`Walks` is a run of one of the loops over attributes, in the variables that the loop has for each
attribute, with the attributes it comes to and the iterations it makes.  `tlvs` is the reference
decoder with the offset of every attribute.  A loop whose variables are as they should be
(`RightVars`) walks the attributes of `tlvs` and no other ones, in at most a quarter as many
iterations as there are bytes (`segments_of`), and these lie one after another in the nest
(`inOrder_tlvs`).
-/

namespace Netdiag

open Lib

/-! ## Attributes where they stand -/

/-- An attribute and the offset of its header. -/
structure Visit extends Attr where
  off : Nat
  deriving DecidableEq, Repr

/-- The offset where the payload ends. -/
def Visit.stop (v : Visit) : Nat :=
  v.off + 4 + v.payload.length

def Visit.ofPlaced (a : Nat × List UInt8) : Visit :=
  { Attr.ofBytes a.2 with off := a.1 }

/-- The attributes of the longest well-formed prefix of a nest, each with its offset. -/
def tlvs (xs : List UInt8) : List Visit :=
  (nlaFraming.placed xs).map Visit.ofPlaced

/-- Without the offsets these are the attributes that the parsers fold over. -/
theorem map_toAttr_tlvs (xs : List UInt8) : (tlvs xs).map Visit.toAttr = attrs xs := by
  have hmap : (nlaFraming.placed xs).map Prod.snd = nlaFraming.split xs :=
    Framing.map_snd_place 0 _
  rw [tlvs, attrs, List.map_map, ← hmap, List.map_map]
  rfl

/-- The reference decoder as a recursion on the rest of the bytes. -/
theorem tlvs_eq (xs : List UInt8) :
    tlvs xs =
      if 4 ≤ xs.length ∧ 4 ≤ (le16At xs 0).toNat ∧ (le16At xs 0).toNat ≤ xs.length then
        { off := 0, type := le16At xs 2 &&& nlaTypeMask,
          payload := (xs.take (le16At xs 0).toNat).drop 4 } ::
        (tlvs (xs.drop (roundUp4 (le16At xs 0).toNat))).map fun v =>
          { v with off := roundUp4 (le16At xs 0).toNat + v.off }
      else [] := by
  split_ifs with hgood
  · have hsome : nlaFraming.size xs = some (le16At xs 0).toNat :=
      nlaFraming_size_eq_some.2 ⟨hgood.1, hgood.2.1, hgood.2.2, rfl⟩
    have htype : le16At (xs.take (le16At xs 0).toNat) 2 = le16At xs 2 := le16At_take hgood.2.1
    rw [tlvs, Framing.placed_of_some hsome, List.map_cons, List.map_map, tlvs, List.map_map,
      ← htype]
    rfl
  · have hnone : nlaFraming.size xs = none := nlaFraming_size_eq_none.2 hgood
    rw [tlvs, Framing.placed, Framing.split_of_none hnone]
    rfl

/-- What the loop has before it when it has come to an attribute: the bytes that its pointer and
its length tell it. -/
def Vars.visit {π : Type} (val : π → Nat) (D : List UInt8) (v : Vars π) : Visit :=
  { off := v.off, type := v.atype, payload := (D.drop v.payload).take (val v.plen) }

/-! ## Runs of a loop -/

section Walks

variable {σ π : Type} (p : Platform) (val : π → Nat) (D : List UInt8)
  (head : Nat → Except Fault (Head π)) (body : σ → UInt16 → π → Nat → Except Fault σ)

/-- From `off` the loop comes to the attributes `vs`, one after another, begins `n` iterations and
ends with its variables as in `b`. -/
inductive Walks : Nat → σ → List Visit → Nat → σ → Prop where
  | done {off : Nat} {s : σ} :
      head off = .ok .done → Walks off s [] 0 s
  | broke {off : Nat} {s : σ} :
      head off = .ok .broke → Walks off s [] 1 s
  | visit {off n : Nat} {s t b : σ} {v : Vars π} {vs : List Visit} :
      head off = .ok (.visit v) → body s v.atype v.plen v.payload = .ok t →
        Walks (p.add off v.aligned) t vs n b → Walks off s (v.visit val D :: vs) (n + 1) b

/-- The loop segments the nest as `vs`: some run of it ends, with a result as it should be, and
every run comes to the attributes `vs` within the number of iterations. -/
structure Segments (s : σ) (vs : List Visit) (turns : Nat) (result : σ → Prop) : Prop where
  ends : ∃ n b, Walks p val D head body 0 s vs n b ∧ result b
  only : ∀ ws n b, Walks p val D head body 0 s ws n b → ws = vs ∧ n ≤ turns

end Walks

namespace Walks

variable {σ π : Type} {p : Platform} {val : π → Nat} {D : List UInt8}
  {head : Nat → Except Fault (Head π)} {body : σ → UInt16 → π → Nat → Except Fault σ}
  {off n : Nat} {s b : σ} {vs : List Visit}

/-- A loop has one run. -/
theorem unique (h : Walks p val D head body off s vs n b) {ws : List Visit} {m : Nat} {c : σ}
    (h' : Walks p val D head body off s ws m c) : ws = vs ∧ m = n := by
  induction h generalizing ws m c with
  | done hhead =>
      cases h' with
      | done => exact ⟨rfl, rfl⟩
      | broke hhead' => cases hhead.symm.trans hhead'
      | visit hhead' => cases hhead.symm.trans hhead'
  | broke hhead =>
      cases h' with
      | done hhead' => cases hhead.symm.trans hhead'
      | broke => exact ⟨rfl, rfl⟩
      | visit hhead' => cases hhead.symm.trans hhead'
  | visit hhead hbody _ ih =>
      cases h' with
      | done hhead' => cases hhead.symm.trans hhead'
      | broke hhead' => cases hhead.symm.trans hhead'
      | visit hhead' hbody' hrest =>
          cases hhead.symm.trans hhead'
          cases hbody.symm.trans hbody'
          obtain ⟨rfl, rfl⟩ := ih hrest
          exact ⟨rfl, rfl⟩

/-- A run is one of the turns of the loop. -/
theorem run (h : Walks p val D head body off s vs n b) :
    Loop.run (nlaTurn p head body) (n + 1) (off, s) = some (.ok b) := by
  induction h with
  | done hhead => exact Loop.run_leave (nlaTurn_of_done hhead _) _
  | broke hhead => exact Loop.run_leave (nlaTurn_of_broke hhead _) _
  | visit hhead hbody _ ih =>
      rw [Loop.run_again (nlaTurn_of_visit hhead hbody)]
      exact ih

end Walks

/-! ## Every nest is walked -/

section Loops

variable {σ π : Type} {p : Platform} {D xs : List UInt8} {base : Nat}
  {body : σ → UInt16 → π → Nat → Except Fault σ} {step : σ → Attr → σ}
  {val : π → Nat} {plen : UInt16 → π} {aligned : UInt16 → Nat}

/-- The bytes of an attribute, as the variables of the loop tell them. -/
theorem visit_of_some (hat : At D base xs) (hvars : RightVars val plen aligned) {off n : Nat}
    (hsome : nlaFraming.size (xs.drop off) = some n) :
    Vars.visit val D
      { off, alen := le16At (xs.drop off) 0, atype := (Attr.ofBytes ((xs.drop off).take n)).type,
        plen := plen (le16At (xs.drop off) 0), payload := base + off + 4,
        aligned := aligned (le16At (xs.drop off) 0) } =
      Visit.ofPlaced (off, (xs.drop off).take n) := by
  obtain ⟨hpayload, hlen⟩ := at_payload hat hsome
  have hn := (nlaFraming_size_eq_some.1 hsome).2.2.2
  have hbytes : (D.drop (base + off + 4)).take (val (plen (le16At (xs.drop off) 0))) =
      (Attr.ofBytes ((xs.drop off).take n)).payload := by
    rw [hvars.plen_eq (hn.trans hlen.symm)]
    exact (List.prefix_iff_eq_take.1 hpayload).symm
  rw [Vars.visit, hbytes]
  rfl

/-- From an offset of the walk on, the loop walks the attributes that are left. -/
theorem exists_walks (hat : At D base xs) (hfit : xs.length + 2 ^ 16 ≤ p.sizeMod)
    (hvars : RightVars val plen aligned) (hbody : ActsAs val D body step)
    {off : Nat} (hoff : nlaFraming.Offset xs off) (s : σ) :
    ∃ n b, 4 * n ≤ xs.length - off ∧
      Walks p val D (nlaHead p D base xs.length plen aligned) body off s
        ((nlaFraming.place off (nlaFraming.split (xs.drop off))).map Visit.ofPlaced) n b := by
  induction off using nlaFraming.induction_left xs generalizing s with
  | hnone off hnone =>
      have hhead := nlaHead_of_none hat hfit hoff hnone plen aligned
      rw [Framing.split_of_none hnone]
      -- The loop begins an iteration here if there is room for a header.
      by_cases hguard : off + 4 ≤ xs.length
      · exact ⟨1, s, by omega, .broke (hhead.trans (by rw [if_pos hguard]))⟩
      · exact ⟨0, s, by omega, .done (hhead.trans (by rw [if_neg hguard]))⟩
  | hsome off n hsome ih =>
      obtain ⟨hpayload, hlen⟩ := at_payload hat hsome
      have hn := (nlaFraming_size_eq_some.1 hsome).2.2.2
      have hstep := hbody s _ _ _ (payload_lt hsome) (hvars.plen_eq (hn.trans hlen.symm)) hpayload
      obtain ⟨m, b, hm, hwalks⟩ := ih (hoff.next hsome) (step s _)
      refine ⟨m + 1, b, ?_, ?_⟩
      · -- The item has four bytes at least, and all of them are there.
        have hend := Framing.add_size_le hsome
        have hstride := nlaFraming.le_stride n
        omega
      · rw [Framing.place_split_of_some hsome, List.map_cons, ← visit_of_some hat hvars hsome]
        refine .visit (nlaHead_of_some hat hfit hsome plen aligned) hstep ?_
        rw [hvars.aligned_eq, toNat_nlaAlign_of_some hsome, add_stride hfit hsome]
        exact hwalks

/-- The loop segments the nest as the reference decoder does, and ends with what the function
computes. -/
theorem segments_of (hat : At D base xs) (hfit : xs.length + 2 ^ 16 ≤ p.sizeMod)
    (hvars : RightVars val plen aligned) (hbody : ActsAs val D body step) (s : σ)
    {result : σ → Prop}
    (hresult : ∀ b, nlaWalk p xs.length (nlaHead p D base xs.length plen aligned) body s = .ok b →
      result b) :
    Segments p val D (nlaHead p D base xs.length plen aligned) body s (tlvs xs) (xs.length / 4)
      result := by
  obtain ⟨n, b, hn, hwalks⟩ := exists_walks hat hfit hvars hbody .start s
  rw [List.drop_zero] at hwalks
  have hturns : n ≤ xs.length / 4 := by omega
  have hrun := Loop.run_mono (by omega : n + 1 ≤ xs.length + 2) hwalks.run
  refine ⟨⟨n, b, hwalks, hresult b (Loop.exec_of_run hrun)⟩, ?_⟩
  intro ws m c hwalks'
  obtain ⟨rfl, rfl⟩ := hwalks.unique hwalks'
  exact ⟨rfl, hturns⟩

end Loops

/-! ## The attributes lie one after another -/

@[simp] theorem Visit.off_ofPlaced (a : Nat × List UInt8) : (Visit.ofPlaced a).off = a.1 := rfl

@[simp] theorem Visit.type_ofPlaced (a : Nat × List UInt8) :
    (Visit.ofPlaced a).type = le16At a.2 2 &&& nlaTypeMask := rfl

@[simp] theorem Visit.payload_ofPlaced (a : Nat × List UInt8) :
    (Visit.ofPlaced a).payload = a.2.drop 4 := rfl

theorem Visit.stop_ofPlaced {a : Nat × List UInt8} (h : 4 ≤ a.2.length) :
    (Visit.ofPlaced a).stop = a.1 + a.2.length := by
  rw [Visit.stop, Visit.off_ofPlaced, Visit.payload_ofPlaced, List.length_drop]
  omega

theorem four_le_of_mem_placed {xs : List UInt8} {a : Nat × List UInt8}
    (h : a ∈ nlaFraming.placed xs) : 4 ≤ a.2.length :=
  (nlaFraming_size_eq_some.1 (Framing.size_of_mem_placed h).1).2.1

/-- The attribute stands in the bytes: its header is at its offset, its payload after it. -/
structure Visit.In (xs : List UInt8) (v : Visit) : Prop where
  inside : v.stop ≤ xs.length
  length : (le16At xs v.off).toNat = 4 + v.payload.length
  type : v.type = le16At xs (v.off + 2) &&& nlaTypeMask
  payload : v.payload = (xs.drop (v.off + 4)).take v.payload.length

/-- The attributes stand in the bytes, the first one at their start, each of the others after the
end of the one before it with at most three bytes of padding between them. -/
structure InOrder (xs : List UInt8) (vs : List Visit) : Prop where
  inside : ∀ v ∈ vs, v.In xs
  first : ∀ v ∈ vs.head?, v.off = 0
  disjoint : vs.Pairwise fun v w => v.stop ≤ w.off
  close : vs.IsChain fun v w => w.off ≤ v.stop + 3

theorem Visit.in_ofPlaced {xs : List UInt8} {a : Nat × List UInt8}
    (h : a ∈ nlaFraming.placed xs) : (Visit.ofPlaced a).In xs := by
  obtain ⟨hsize, hbytes⟩ := Framing.size_of_mem_placed h
  obtain ⟨_, hmin, _, hlen⟩ := nlaFraming_size_eq_some.1 hsize
  refine ⟨?_, ?_, ?_, ?_⟩
  · rw [Visit.stop_ofPlaced hmin]
    exact Framing.add_size_le hsize
  · rw [Visit.off_ofPlaced, ← Nat.add_zero a.1, ← le16At_drop, hlen, Visit.payload_ofPlaced,
      List.length_drop]
    omega
  · rw [Visit.off_ofPlaced, Visit.type_ofPlaced, hbytes, le16At_take hmin, le16At_drop]
  · rw [Visit.off_ofPlaced, Visit.payload_ofPlaced, List.length_drop, ← List.drop_drop,
      ← List.drop_take, ← hbytes]

/-- The attributes of the reference decoder lie in the nest as `InOrder` says. -/
theorem inOrder_tlvs (xs : List UInt8) : InOrder xs (tlvs xs) where
  inside := by
    intro v hv
    obtain ⟨a, ha, rfl⟩ := List.mem_map.1 hv
    exact Visit.in_ofPlaced ha
  first := by
    intro v hv
    rw [tlvs, Framing.placed] at hv
    cases hsplit : nlaFraming.split xs with
    | nil => simp [hsplit, Framing.place] at hv
    | cons m ms =>
        rw [hsplit, Framing.place, List.map_cons, List.head?_cons, Option.mem_some_iff] at hv
        exact hv ▸ rfl
  disjoint := by
    refine List.pairwise_map.2 ((Framing.pairwise_place 0 _).imp_of_mem ?_)
    intro a b ha _ hab
    rw [Visit.stop_ofPlaced (four_le_of_mem_placed ha)]
    exact (Nat.add_le_add_left (nlaFraming.le_stride _) _).trans hab
  close := by
    refine (List.isChain_map _).2 ((Framing.isChain_place 0 _).imp_of_mem_imp ?_)
    intro a b ha _ hab
    have hround := roundUp4_le a.2.length
    rw [Visit.stop_ofPlaced (four_le_of_mem_placed ha), Visit.off_ofPlaced, hab,
      nlaFraming_stride]
    omega

end Netdiag
