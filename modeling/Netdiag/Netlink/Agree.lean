import Netdiag.Netlink.Put

/-!
# Agree — attributes in another order

A nest is read by rules: one reads the attributes of some types with payloads that are long enough,
and says when two payloads mean the same.  Nests agree if each rule reads payloads of the same
meaning, in the same order.  How the attributes of different rules lie among each other is left
open, and so is what no rule reads: attributes of which no rule reads two may stand in any order
(`Agree.perm`), groups of them may be exchanged (`Agree.append_comm`), and those that no rule reads
may come and go (`Agree.insert`).
-/

namespace Netdiag

open Lib

/-! ## Nests that agree -/

structure Rule where
  types : List UInt16
  min : Nat
  /-- Two payloads mean the same. -/
  Same : List UInt8 → List UInt8 → Prop

/-- The rule reads the attribute. -/
def Rule.Reads (r : Rule) (a : Attr) : Prop :=
  a.type ∈ r.types ∧ r.min ≤ a.payload.length

instance (r : Rule) (a : Attr) : Decidable (r.Reads a) :=
  inferInstanceAs (Decidable (_ ∧ _))

/-- The payloads that a rule reads, in order. -/
def payloads (r : Rule) (as : List Attr) : List (List UInt8) :=
  (as.filter (r.Reads ·)).map Attr.payload

def Agree (rules : List Rule) (as bs : List Attr) : Prop :=
  ∀ r ∈ rules, List.Forall₂ r.Same (payloads r as) (payloads r bs)

/-- The attributes in two nests agree. -/
def AgreeIn (rules : List Rule) (xs ys : List UInt8) : Prop :=
  Agree rules (attrs xs) (attrs ys)

/-- A type whose payloads are read as a value. -/
def Rule.value (type : UInt16) (min : Nat) : Rule where
  types := [type]
  min := min
  Same := Eq

/-- A type whose payloads are nests. -/
def Rule.nest (type : UInt16) (inner : List Rule) : Rule where
  types := [type]
  min := 0
  Same := AgreeIn inner

theorem payloads_append (r : Rule) (as bs : List Attr) :
    payloads r (as ++ bs) = payloads r as ++ payloads r bs := by
  rw [payloads, List.filter_append, List.map_append]
  rfl

theorem payloads_of_not_reads {r : Rule} {a : Attr} (h : ¬ r.Reads a) : payloads r [a] = [] := by
  rw [payloads, List.filter_singleton, decide_eq_false h]
  rfl

theorem payloads_flatMap (r : Rule) (xss : List (List UInt8)) :
    payloads r (xss.flatMap attrs) = xss.flatMap fun xs => payloads r (attrs xs) := by
  induction xss with
  | nil => rfl
  | cons xs xss ih => rw [List.flatMap_cons, payloads_append, ih, List.flatMap_cons]

/-- The filters by type and by length are one. -/
theorem payloads_eq_filter (r : Rule) (as : List Attr) :
    payloads r as =
      ((as.filter (·.type ∈ r.types)).map Attr.payload).filter (r.min ≤ ·.length) := by
  rw [payloads, List.filter_map, List.filter_filter]
  congr 2
  funext a
  rw [Function.comp_apply, ← Bool.decide_and, decide_eq_decide, and_comm]
  rfl

theorem lastAttr_eq_getLast? (type : UInt16) (min : Nat) (as : List Attr) :
    lastAttr type min as = (payloads (.value type min) as).getLast? := by
  rw [payloads_eq_filter]
  simp only [lastAttr, Rule.value, List.mem_singleton]
  rfl

/-- All payloads are long enough for a nest. -/
theorem payloads_nest (type : UInt16) (inner : List Rule) (as : List Attr) :
    payloads (.nest type inner) as = (as.filter (·.type = type)).map Attr.payload := by
  rw [payloads_eq_filter]
  simp only [Rule.nest, List.mem_singleton, Nat.zero_le, decide_true, List.filter_true]

theorem nested_eq_flatMap (type : UInt16) (inner : List Rule) (as : List Attr) :
    nested type as = (payloads (.nest type inner) as).flatMap attrs := by
  rw [payloads_nest, List.flatMap_map]
  rfl

/-! ## What nests that agree have in common -/

namespace Agree

variable {rules inner : List Rule} {as bs : List Attr} {type : UInt16}

theorem payloads_eq (h : Agree rules as bs) {r : Rule} (hrule : r ∈ rules) (hsame : r.Same = Eq) :
    payloads r as = payloads r bs := by
  have hall := h r hrule
  rwa [hsame, List.forall₂_eq_eq_eq] at hall

theorem lastAttr_eq {min : Nat} (h : Agree rules as bs) (hrule : Rule.value type min ∈ rules) :
    lastAttr type min as = lastAttr type min bs := by
  rw [lastAttr_eq_getLast?, lastAttr_eq_getLast?, h.payloads_eq hrule rfl]

/-- What is in all the nests of a type agrees too. -/
theorem nested (h : Agree rules as bs) (hrule : Rule.nest type inner ∈ rules) :
    Agree inner (nested type as) (nested type bs) := by
  intro r hr
  rw [nested_eq_flatMap type inner, nested_eq_flatMap type inner, payloads_flatMap,
    payloads_flatMap]
  have hnests : List.Forall₂ (AgreeIn inner) _ _ := h _ hrule
  generalize payloads (.nest type inner) as = xss at hnests ⊢
  generalize payloads (.nest type inner) bs = yss at hnests ⊢
  -- Nest by nest, what the rule reads in one follows what it reads in those before.
  induction hnests with
  | nil => exact .nil
  | cons hhead _ ih =>
      rw [List.flatMap_cons, List.flatMap_cons]
      exact List.rel_append (hhead r hr) ih

/-- The last nest means the same, if nests that agree do. -/
theorem lastAttr_elim {α : Type} {f : List UInt8 → α} (h : Agree rules as bs)
    (hrule : Rule.nest type inner ∈ rules) (hf : ∀ xs ys, AgreeIn inner xs ys → f xs = f ys)
    (d : α) : (lastAttr type 0 as).elim d f = (lastAttr type 0 bs).elim d f := by
  have hmap : (payloads (.nest type inner) as).map f = (payloads (.nest type inner) bs).map f := by
    have hnests : List.Forall₂ (AgreeIn inner) _ _ := h _ hrule
    generalize payloads (.nest type inner) as = xss at hnests ⊢
    generalize payloads (.nest type inner) bs = yss at hnests ⊢
    induction hnests with
    | nil => rfl
    | cons hhead _ ih => rw [List.map_cons, List.map_cons, hf _ _ hhead, ih]
  have hlast : ∀ cs : List Attr, (lastAttr type 0 cs).elim d f =
      ((payloads (.nest type inner) cs).map f).getLast?.getD d := by
    intro cs
    -- The same payloads are read, whatever they mean.
    have hvalue : payloads (.value type 0) cs = payloads (.nest type inner) cs := rfl
    rw [lastAttr_eq_getLast?, hvalue, List.getLast?_map]
    cases (payloads (.nest type inner) cs).getLast? <;> rfl
  rw [hlast, hlast, hmap]

end Agree

/-! ## Changes that nests agree after -/

/-- Payloads mean the same as themselves, whatever rule reads them. -/
def Reflexive (rules : List Rule) : Prop :=
  ∀ r ∈ rules, ∀ xs, r.Same xs xs

theorem reflexive_nil : Reflexive [] := by
  intro r hr
  cases hr

theorem reflexive_value {rules : List Rule} (h : Reflexive rules) (type : UInt16) (min : Nat) :
    Reflexive (.value type min :: rules) :=
  List.forall_mem_cons.2 ⟨fun _ => rfl, h⟩

theorem Agree.refl {rules : List Rule} (h : Reflexive rules) (as : List Attr) :
    Agree rules as as := by
  intro r hr
  exact List.forall₂_same.2 fun xs _ => h r hr xs

theorem reflexive_nest {rules inner : List Rule} (h : Reflexive rules) (hinner : Reflexive inner)
    (type : UInt16) : Reflexive (.nest type inner :: rules) :=
  List.forall_mem_cons.2 ⟨fun xs => Agree.refl hinner (attrs xs), h⟩

theorem Agree.of_payloads_eq {rules : List Rule} (h : Reflexive rules) {as bs : List Attr}
    (heq : ∀ r ∈ rules, payloads r as = payloads r bs) : Agree rules as bs := by
  intro r hr
  rw [heq r hr]
  exact Agree.refl h bs r hr

theorem Agree.append {rules : List Rule} {as bs cs ds : List Attr} (h : Agree rules as bs)
    (h' : Agree rules cs ds) : Agree rules (as ++ cs) (bs ++ ds) := by
  intro r hr
  rw [payloads_append, payloads_append]
  exact List.rel_append (h r hr) (h' r hr)

/-- Two groups of attributes that no rule reads both of may be exchanged. -/
theorem Agree.append_comm {rules : List Rule} {as bs cs ds : List Attr} (h : Agree rules as bs)
    (h' : Agree rules cs ds) (hnone : ∀ r ∈ rules, payloads r as = [] ∨ payloads r cs = []) :
    Agree rules (as ++ cs) (ds ++ bs) := by
  intro r hr
  have hfirst := h r hr
  have hsecond := h' r hr
  rw [payloads_append, payloads_append]
  -- What the rule does not read of a group, it does not read of the one that agrees with it.
  rcases hnone r hr with hnil | hnil
  · rw [hnil] at hfirst ⊢
    rwa [List.forall₂_nil_left_iff.1 hfirst, List.append_nil]
  · rw [hnil] at hsecond ⊢
    rwa [List.forall₂_nil_left_iff.1 hsecond, List.append_nil]

/-- Nests that agree inside agree where they are read as nests only. -/
theorem Agree.nest {rules inner : List Rule} {type : UInt16} {xs ys : List UInt8}
    (h : AgreeIn inner xs ys) (honly : ∀ r ∈ rules, type ∈ r.types → r = .nest type inner) :
    Agree rules [⟨type, xs⟩] [⟨type, ys⟩] := by
  intro r hr
  by_cases htype : type ∈ r.types
  · have hone : ∀ zs, payloads (.nest type inner) [⟨type, zs⟩] = [zs] := by
      intro zs
      simp [payloads_nest]
    rw [honly r hr htype, hone, hone]
    exact .cons h .nil
  · have hreads : ∀ zs, ¬ r.Reads ⟨type, zs⟩ := fun zs hreads => htype hreads.1
    rw [payloads_of_not_reads (hreads xs), payloads_of_not_reads (hreads ys)]
    exact .nil

/-- Attributes in any order, of which no rule reads two. -/
theorem Agree.perm {rules : List Rule} (h : Reflexive rules) {as bs : List Attr}
    (hperm : as.Perm bs) (hone : ∀ r ∈ rules, (payloads r as).length ≤ 1) :
    Agree rules as bs := by
  refine .of_payloads_eq h fun r hr => ?_
  have hpayloads : (payloads r as).Perm (payloads r bs) := (hperm.filter _).map _
  have hle := hone r hr
  -- At most one payload has no other order.
  generalize payloads r as = xs at hpayloads hle ⊢
  rcases xs with _ | ⟨x, _ | ⟨y, xs⟩⟩
  · exact (List.nil_perm.1 hpayloads).symm
  · exact hpayloads.singleton_eq
  · rw [List.length_cons, List.length_cons] at hle
    omega

/-- An attribute that no rule reads. -/
theorem Agree.insert {rules : List Rule} (h : Reflexive rules) (as bs : List Attr) {a : Attr}
    (ha : ∀ r ∈ rules, ¬ r.Reads a) : Agree rules (as ++ bs) (as ++ a :: bs) := by
  refine .of_payloads_eq h fun r hr => ?_
  rw [← List.singleton_append, payloads_append, payloads_append, payloads_append,
    payloads_of_not_reads (ha r hr), List.nil_append]

/-- Nests that were laid out agree if what was laid out does. -/
theorem AgreeIn.putAll {rules : List Rule} {as bs : List Attr} (hfits : ∀ a ∈ as, a.Fits)
    (hfits' : ∀ b ∈ bs, b.Fits) (h : Agree rules (as.map Attr.unflag) (bs.map Attr.unflag)) :
    AgreeIn rules (Netdiag.putAll as) (Netdiag.putAll bs) := by
  rwa [AgreeIn, attrs_putAll hfits, attrs_putAll hfits']

end Netdiag
