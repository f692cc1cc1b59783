import Mathlib.Data.List.Basic
import Mathlib.Tactic.Common
import Netdiag.Lib.Observe

/-!
# Buffer — a bounded queue as its owner sees it

A buffer is a list of elements and a number of places; an element that finds no place is lost.
Of two buffers that are filled and emptied alike, the one with more places loses no element that
the other keeps (`Buffer.Within`).  So it is for systems that have buffers: whatever inputs they
take, all that came out of the system with the smaller buffer came out of the other one, or is
still in it (`trace_within`).
-/

namespace Netdiag
namespace Lib

universe u v

structure Buffer (α : Type u) where
  places : Nat
  items : List α

namespace Buffer

variable {α : Type u}

def push (b : Buffer α) (x : α) : Buffer α :=
  if b.items.length < b.places then { b with items := b.items ++ [x] } else b

def pushAll (b : Buffer α) (xs : List α) : Buffer α :=
  xs.foldl push b

/-- The return value, the buffer, and what the place for an element holds afterwards. -/
def pop (b : Buffer α) (x : α) : Int × Buffer α × α :=
  match b.items with
  | [] => (0, b, x)
  | front :: rest => (1, { b with items := rest }, front)

def clear (b : Buffer α) : Buffer α :=
  { b with items := [] }

/-- The front element has been taken, if there was one. -/
structure Pops (b b' : Buffer α) (out : Option α) : Prop where
  front : out = b.items.head?
  places : b'.places = b.places
  items : b'.items = b.items.tail

theorem pops_pop (b : Buffer α) (x : α) :
    b.Pops (b.pop x).2.1 (if (b.pop x).1 = 1 then some (b.pop x).2.2 else none) := by
  rcases b with ⟨places, _ | ⟨front, rest⟩⟩ <;> exact ⟨rfl, rfl, rfl⟩

/-! ## More places -/

/-- Of the elements that were taken from the first buffer or are in it, none is lacking in the
second one, which has as much room or more. -/
structure Within (a b : Buffer α) (fromA fromB : List α) : Prop where
  fits : b.items.length ≤ b.places
  length_le : a.items.length ≤ b.items.length
  room_le : a.places - a.items.length ≤ b.places - b.items.length
  sublist : (fromA ++ a.items).Sublist (fromB ++ b.items)

theorem within_empty {a b : Buffer α} (ha : a.items = []) (hb : b.items = [])
    (hplaces : a.places ≤ b.places) : Within a b [] [] := by
  refine ⟨?_, ?_, ?_, ?_⟩
  · rw [hb]
    exact Nat.zero_le _
  · exact Nat.le_of_eq (by rw [ha, hb])
  · rwa [ha, hb, List.length_nil, Nat.sub_zero, Nat.sub_zero]
  · rw [ha, hb]

theorem Within.push {a b : Buffer α} {fromA fromB : List α} (h : Within a b fromA fromB) (x : α) :
    Within (a.push x) (b.push x) fromA fromB := by
  have hfits := h.fits
  have hlen := h.length_le
  have hroom := h.room_le
  rw [Buffer.push, Buffer.push]
  by_cases ha : a.items.length < a.places
  · -- Where the first has a place the second has one.
    have hb : b.items.length < b.places := by omega
    rw [if_pos ha, if_pos hb]
    refine ⟨?_, ?_, ?_, ?_⟩
    · simp only [List.length_append, List.length_singleton]
      omega
    · simp only [List.length_append, List.length_singleton]
      omega
    · simp only [List.length_append, List.length_singleton]
      omega
    · rw [← List.append_assoc, ← List.append_assoc]
      exact h.sublist.append_right [x]
  · rw [if_neg ha]
    -- The first drops the event. If the second keeps it, it only has more than before.
    by_cases hb : b.items.length < b.places
    · rw [if_pos hb]
      refine ⟨?_, ?_, ?_, ?_⟩
      · simp only [List.length_append, List.length_singleton]
        omega
      · simp only [List.length_append, List.length_singleton]
        omega
      · simp only [List.length_append, List.length_singleton]
        omega
      · rw [← List.append_assoc]
        exact h.sublist.trans (List.sublist_append_left _ [x])
    · rw [if_neg hb]
      exact h

theorem Within.pushAll {a b : Buffer α} {fromA fromB : List α} (h : Within a b fromA fromB)
    (xs : List α) : Within (a.pushAll xs) (b.pushAll xs) fromA fromB := by
  induction xs generalizing a b with
  | nil => exact h
  | cons x xs ih => exact ih (h.push x)

/-- What is taken stays among the elements that were taken or are there. -/
theorem Pops.append {a a' : Buffer α} {out : Option α} (h : a.Pops a' out) (froms : List α) :
    froms ++ out.toList ++ a'.items = froms ++ a.items := by
  rw [h.front, h.items, List.append_assoc]
  cases a.items <;> rfl

theorem Within.pops {a b a' b' : Buffer α} {fromA fromB : List α} (h : Within a b fromA fromB)
    {x y : Option α} (ha : a.Pops a' x) (hb : b.Pops b' y) :
    Within a' b' (fromA ++ x.toList) (fromB ++ y.toList) := by
  have hfits := h.fits
  have hlen := h.length_le
  have hroom := h.room_le
  refine ⟨?_, ?_, ?_, ?_⟩
  · rw [hb.items, hb.places, List.length_tail]
    omega
  · rw [ha.items, hb.items, List.length_tail, List.length_tail]
    omega
  · rw [ha.items, hb.items, ha.places, hb.places, List.length_tail, List.length_tail]
    omega
  · rw [ha.append, hb.append]
    exact h.sublist

end Buffer

/-! ## Systems with a buffer -/

section Systems

variable {ε : Type u} {σ ι ο α : Type v} {step : σ → ι → Except ε (σ × ο)}
  {buffer : σ → Buffer α} {taken : ο → Option α}

/-- An input did the same to two systems: the same elements went into both buffers, or the front
element was taken from each. -/
def Buffer.DidSame (buffer : σ → Buffer α) (taken : ο → Option α) (a b : σ) (x y : σ × ο) : Prop :=
  (∃ xs, (buffer x.1 = (buffer a).pushAll xs ∧ taken x.2 = none) ∧
    (buffer y.1 = (buffer b).pushAll xs ∧ taken y.2 = none)) ∨
  (buffer a).Pops (buffer x.1) (taken x.2) ∧ (buffer b).Pops (buffer y.1) (taken y.2)

/-- All that came out of the first system, or is in its buffer, came out of the second one or is
in its buffer. -/
theorem trace_within {Same : σ → σ → Prop} {is : List ι}
    (hstep : ∀ i ∈ is, ∀ a b, Same a b →
      RelOk (fun x y => Same x.1 y.1 ∧ Buffer.DidSame buffer taken a b x y) (step a i) (step b i))
    {s t : σ} (h : Same s t) {fromS fromT : List α}
    (hwithin : (buffer s).Within (buffer t) fromS fromT) :
    RelOk (fun x y => Same x.1 y.1 ∧ (buffer x.1).Within (buffer y.1)
      (fromS ++ x.2.filterMap taken) (fromT ++ y.2.filterMap taken))
      (trace step s is) (trace step t is) := by
  induction is generalizing s t fromS fromT with
  | nil =>
      refine .ok ⟨h, ?_⟩
      rw [List.filterMap_nil, List.append_nil, List.append_nil]
      exact hwithin
  | cons i is ih =>
      rw [trace, trace]
      refine (hstep i List.mem_cons_self s t h).bind ?_
      rintro ⟨s', o⟩ ⟨t', p⟩ ⟨hsame, hdid⟩
      -- One input: the buffers are as before, with what was taken now.
      have hnext : (buffer s').Within (buffer t') (fromS ++ (taken o).toList)
          (fromT ++ (taken p).toList) := by
        rcases hdid with ⟨xs, ⟨hs, ho⟩, ht, hp⟩ | ⟨hs, ht⟩
        · dsimp only at hs ho ht hp
          rw [hs, ho, ht, hp, Option.toList_none, List.append_nil, List.append_nil]
          exact hwithin.pushAll xs
        · exact hwithin.pops hs ht
      have hrest := ih (fun j hj => hstep j (List.mem_cons_of_mem i hj)) hsame hnext
      refine hrest.bind ?_
      rintro ⟨s'', os⟩ ⟨t'', ps⟩ ⟨hlast, hall⟩
      refine .ok ⟨hlast, ?_⟩
      have hcons : ∀ (q : ο) (qs : List ο),
          (q :: qs).filterMap taken = (taken q).toList ++ qs.filterMap taken := by
        intro q qs
        rw [List.filterMap_cons]
        cases taken q <;> rfl
      rw [hcons, hcons, ← List.append_assoc, ← List.append_assoc]
      exact hall

end Systems

end Lib
end Netdiag
