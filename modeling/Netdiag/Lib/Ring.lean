import Mathlib.Data.List.Basic
import Mathlib.Tactic.Common

/-!
# Ring — a bounded queue in a circular array

An array of `N` slots of which the first `qsz` are in use, the slot to read next (`head`), the
slot to write next (`tail`) and the number of queued elements (`cnt`).

`RawRing` is the record as a program keeps it, with its three operations.  `RawRing.Wf` is the
invariant that they maintain, and `Ring` is the type of the records that satisfy it.  What a ring
is for is the list `items` of its queued elements: `push` appends to that list unless it is full,
and `pop` takes from its front.
-/

namespace Netdiag
namespace Lib

universe u

structure RawRing (α : Type u) (N : Nat) where
  qsz : Nat
  head : Nat
  tail : Nat
  cnt : Nat
  q : Vector α N
  deriving DecidableEq, Repr

namespace RawRing

variable {α : Type u} {N : Nat}

/-! ## Operations -/

/-- A ring in freshly zeroed memory. -/
def calloc (zero : α) : RawRing α N :=
  { qsz := 0, head := 0, tail := 0, cnt := 0, q := Vector.replicate N zero }

/-- Empty the ring and set its size: `dflt` when the size asked for is `0`, and at most `N`.
The slots keep what they hold. -/
def init (dflt : Nat) (r : RawRing α N) (size : Nat) : RawRing α N :=
  let qsz := if size ≠ 0 then size else dflt
  { r with qsz := if qsz > N then N else qsz, head := 0, tail := 0, cnt := 0 }

/-- Queue an element; `-1` and no change when the ring is full. -/
def push (r : RawRing α N) (e : α) : RawRing α N × Int :=
  if r.cnt ≥ r.qsz then
    (r, -1)
  else
    ({ r with
        q := r.q.setIfInBounds r.tail e
        tail := (r.tail + 1) % r.qsz
        cnt := r.cnt + 1 }, 0)

/-- Take the oldest element, if there is one. -/
def pop (r : RawRing α N) : RawRing α N × Option α :=
  if r.cnt = 0 then
    (r, none)
  else
    ({ r with head := (r.head + 1) % r.qsz, cnt := r.cnt - 1 }, r.q[r.head]?)

/-! ## The invariant -/

structure Wf (r : RawRing α N) : Prop where
  qsz_pos : 0 < r.qsz
  qsz_le : r.qsz ≤ N
  head_lt : r.head < r.qsz
  tail_eq : r.tail = (r.head + r.cnt) % r.qsz
  cnt_le : r.cnt ≤ r.qsz

theorem Wf.init {dflt : Nat} (hdflt : 0 < dflt) (hN : 0 < N) (r : RawRing α N) (size : Nat) :
    (r.init dflt size).Wf := by
  have hpos : 0 < (r.init dflt size).qsz := by
    simp only [RawRing.init]
    split_ifs <;> omega
  have hle : (r.init dflt size).qsz ≤ N := by
    simp only [RawRing.init]
    split_ifs <;> omega
  exact
    { qsz_pos := hpos
      qsz_le := hle
      head_lt := hpos
      tail_eq := by simp [RawRing.init]
      cnt_le := Nat.zero_le _ }

theorem Wf.push {r : RawRing α N} (h : r.Wf) (e : α) : (r.push e).1.Wf := by
  rw [RawRing.push]
  split_ifs with hfull
  · exact h
  · refine
      { qsz_pos := h.qsz_pos
        qsz_le := h.qsz_le
        head_lt := h.head_lt
        tail_eq := ?_
        cnt_le := by simp only; omega }
    simp only [h.tail_eq, Nat.mod_add_mod, Nat.add_assoc]

theorem Wf.pop {r : RawRing α N} (h : r.Wf) : r.pop.1.Wf := by
  rw [RawRing.pop]
  split_ifs with hempty
  · exact h
  · refine
      { qsz_pos := h.qsz_pos
        qsz_le := h.qsz_le
        head_lt := Nat.mod_lt _ h.qsz_pos
        tail_eq := ?_
        cnt_le := Nat.le_trans (Nat.sub_le _ _) h.cnt_le }
    have hcnt : r.head + 1 + (r.cnt - 1) = r.head + r.cnt := by omega
    simp only [h.tail_eq, Nat.mod_add_mod, hcnt]

/-! ## The queued elements -/

/-- The queued elements, oldest first. -/
def items (r : RawRing α N) : List α :=
  (List.range r.cnt).filterMap fun i => r.q[(r.head + i) % r.qsz]?

/-- Two slots fewer than `qsz` apart are different slots. -/
theorem slot_ne {qsz a b : Nat} (hlt : a < b) (hb : b < a + qsz) : a % qsz ≠ b % qsz := by
  intro heq
  have hzero : (b - a) % qsz = 0 := Nat.sub_mod_eq_zero_of_mod_eq heq.symm
  rw [Nat.mod_eq_of_lt (by omega)] at hzero
  omega

theorem Wf.slot_lt {r : RawRing α N} (h : r.Wf) (i : Nat) : (r.head + i) % r.qsz < N :=
  Nat.lt_of_lt_of_le (Nat.mod_lt _ h.qsz_pos) h.qsz_le

theorem Wf.length_items {r : RawRing α N} (h : r.Wf) : r.items.length = r.cnt := by
  have hsome : ∀ i ∈ List.range r.cnt, (r.q[(r.head + i) % r.qsz]?).isSome := by
    intro i _
    rw [Vector.getElem?_eq_getElem (h.slot_lt i)]
    rfl
  rw [items, List.length_filterMap_eq_countP, List.countP_eq_length.2 hsome, List.length_range]

theorem items_init (dflt : Nat) (r : RawRing α N) (size : Nat) :
    (r.init dflt size).items = [] := rfl

theorem Wf.items_push {r : RawRing α N} (h : r.Wf) (e : α) :
    (r.push e).1.items = if r.cnt < r.qsz then r.items ++ [e] else r.items := by
  rw [RawRing.push]
  split_ifs with hfull hroom hroom
  · omega
  · rfl
  · have htail : r.tail < N := by
      rw [h.tail_eq]
      exact h.slot_lt _
    have hnew : (r.q.setIfInBounds r.tail e)[(r.head + r.cnt) % r.qsz]? = some e := by
      rw [← h.tail_eq, Vector.getElem?_setIfInBounds_self_of_lt htail]
    -- The slots that are in use already are not the one written to.
    have hold : ∀ i ∈ List.range r.cnt,
        (r.q.setIfInBounds r.tail e)[(r.head + i) % r.qsz]? = r.q[(r.head + i) % r.qsz]? := by
      intro i hi
      have hi' := List.mem_range.1 hi
      rw [h.tail_eq]
      exact Vector.getElem?_setIfInBounds_ne (slot_ne (by omega) (by omega)).symm
    simp only [items, List.range_succ, List.filterMap_append, List.filterMap_cons,
      List.filterMap_nil, hnew]
    rw [List.filterMap_congr hold]
  · omega

theorem Wf.items_pop {r : RawRing α N} (h : r.Wf) :
    r.pop.2 = r.items.head? ∧ r.pop.1.items = r.items.tail := by
  rw [RawRing.pop]
  split_ifs with hempty
  · simp [items, hempty]
  · obtain ⟨k, hk⟩ : ∃ k, r.cnt = k + 1 := ⟨r.cnt - 1, by omega⟩
    have hhead : r.head < N := Nat.lt_of_lt_of_le h.head_lt h.qsz_le
    have hslot : r.q[r.head % r.qsz]? = some (r.q[r.head]) := by
      rw [Nat.mod_eq_of_lt h.head_lt, Vector.getElem?_eq_getElem hhead]
    have hrest : ∀ i, (r.head + (i + 1)) % r.qsz = ((r.head + 1) % r.qsz + i) % r.qsz := by
      intro i
      rw [Nat.mod_add_mod]
      congr 1
      omega
    -- The slots behind the head are those of the ring that is left.
    have hitems : r.items = r.q[r.head] :: (List.range k).filterMap
        (fun i => r.q[((r.head + 1) % r.qsz + i) % r.qsz]?) := by
      rw [items, hk, List.range_succ_eq_map, List.filterMap_cons, Nat.add_zero, hslot,
        List.filterMap_map]
      refine congrArg _ (List.filterMap_congr ?_)
      intro i _
      exact congrArg (r.q[·]?) (hrest i)
    refine ⟨?_, ?_⟩
    · rw [hitems, Vector.getElem?_eq_getElem hhead]
      rfl
    · rw [hitems]
      simp only [items, hk, Nat.add_sub_cancel, List.tail_cons]

end RawRing

/-! ## Rings that satisfy the invariant -/

/-- A ring whose indices and counter fit together. -/
def Ring (α : Type u) (N : Nat) : Type u :=
  { r : RawRing α N // r.Wf }

namespace Ring

variable {α : Type u} {N : Nat}

def qsz (r : Ring α N) : Nat := r.1.qsz

def items (r : Ring α N) : List α := r.1.items

/-- Setting the size makes a ring out of any record. -/
def init (dflt : Nat) (hdflt : 0 < dflt) (hN : 0 < N) (r : RawRing α N) (size : Nat) : Ring α N :=
  ⟨r.init dflt size, RawRing.Wf.init hdflt hN r size⟩

def push (r : Ring α N) (e : α) : Ring α N × Int :=
  (⟨(r.1.push e).1, r.2.push e⟩, (r.1.push e).2)

def pop (r : Ring α N) : Ring α N × Option α :=
  (⟨r.1.pop.1, r.2.pop⟩, r.1.pop.2)

theorem items_push (r : Ring α N) (e : α) :
    (r.push e).1.items = if r.items.length < r.qsz then r.items ++ [e] else r.items := by
  rw [items, items, r.2.length_items]
  exact r.2.items_push e

theorem length_items_le (r : Ring α N) : r.items.length ≤ r.qsz := by
  rw [items, r.2.length_items]
  exact r.2.cnt_le

/-- Queueing succeeds exactly if there is room. -/
theorem push_snd (r : Ring α N) (e : α) :
    (r.push e).2 = if r.items.length < r.qsz then 0 else -1 := by
  rw [items, r.2.length_items]
  show (r.1.push e).2 = if r.1.cnt < r.1.qsz then 0 else -1
  rw [RawRing.push]
  split_ifs with hfull hroom hroom
  · omega
  · rfl
  · rfl
  · omega

@[simp] theorem qsz_push (r : Ring α N) (e : α) : (r.push e).1.qsz = r.qsz := by
  simp only [push, qsz, RawRing.push]
  split_ifs <;> rfl

theorem pop_snd (r : Ring α N) : r.pop.2 = r.items.head? :=
  r.2.items_pop.1

theorem items_pop (r : Ring α N) : r.pop.1.items = r.items.tail :=
  r.2.items_pop.2

@[simp] theorem qsz_pop (r : Ring α N) : r.pop.1.qsz = r.qsz := by
  simp only [pop, qsz, RawRing.pop]
  split_ifs <;> rfl

/-! ## Queueing a whole list -/

/-- Queue the elements one after the other; one that finds the ring full is dropped. -/
def pushAll (r : Ring α N) (es : List α) : Ring α N :=
  es.foldl (fun r e => (r.push e).1) r

@[simp] theorem qsz_pushAll (r : Ring α N) (es : List α) : (r.pushAll es).qsz = r.qsz := by
  induction es generalizing r with
  | nil => rfl
  | cons e es ih =>
      have hrest := ih (r.push e).1
      rw [qsz_push] at hrest
      exact hrest

/-- The elements that are kept are the first ones, as many as there were free slots. -/
theorem items_pushAll (r : Ring α N) (es : List α) :
    (r.pushAll es).items = r.items ++ es.take (r.qsz - r.items.length) := by
  induction es generalizing r with
  | nil => simp [pushAll]
  | cons e es ih =>
      have hrest := ih (r.push e).1
      rw [items_push, qsz_push] at hrest
      refine Eq.trans hrest ?_
      split_ifs with hroom
      · have hfree : r.qsz - r.items.length = (r.qsz - (r.items ++ [e]).length) + 1 := by
          rw [List.length_append, List.length_singleton]
          omega
        rw [hfree, List.take_succ_cons, List.append_assoc]
        rfl
      · have hfree : r.qsz - r.items.length = 0 := by omega
        rw [hfree, List.take_zero, List.take_zero]

end Ring
end Lib
end Netdiag
