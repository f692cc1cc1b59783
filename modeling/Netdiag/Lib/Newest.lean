import Mathlib.Data.List.Basic
import Mathlib.Data.List.DropRight
import Mathlib.Tactic.Common

/-!
# Newest — a bounded queue that drops the oldest

A queue of `cap` places that always has room for the newest: what is added goes to its end, and if
there are more than `cap` elements then, the oldest of them are gone.  `Newest` keeps such a queue
together with the current burst, the elements that were added since one was last taken.  After a
burst of at least `cap` elements the queue holds the last `cap` of them (`Newest.Kept.queue_eq`).

A queue that refuses what it has no room for agrees with it on the next element exactly if there
was room, or all elements are the same (`append_take_eq_rtake_iff`).
-/

namespace Netdiag
namespace Lib

universe u

variable {α : Type u}

structure Newest (α : Type u) where
  queue : List α
  burst : List α
  deriving DecidableEq, Repr

namespace Newest

/-- Add elements, the oldest first. -/
def add (cap : Nat) (w : Newest α) (es : List α) : Newest α where
  queue := (w.queue ++ es).rtake cap
  burst := w.burst ++ es

/-- Take the oldest element, if there is one; the burst is over. -/
def pop (w : Newest α) : Newest α where
  queue := w.queue.tail
  burst := []

def empty : Newest α where
  queue := []
  burst := []

/-! ## Bursts -/

theorem rtake_append_rtake (cap : Nat) (xs ys : List α) :
    (xs.rtake cap ++ ys).rtake cap = (xs ++ ys).rtake cap := by
  simp only [List.rtake_eq_reverse_take_reverse, List.reverse_append, List.reverse_reverse,
    List.take_append, List.take_take, Nat.min_eq_left (Nat.sub_le _ _)]

theorem rtake_of_length_le {cap : Nat} {xs : List α} (h : xs.length ≤ cap) :
    xs.rtake cap = xs := by
  rw [List.rtake, Nat.sub_eq_zero_of_le h, List.drop_zero]

theorem rtake_append_of_le {cap : Nat} {ys : List α} (h : cap ≤ ys.length) (xs : List α) :
    (xs ++ ys).rtake cap = ys.rtake cap := by
  rw [List.rtake, List.rtake, List.length_append, Nat.add_sub_assoc h, List.drop_append]
  simp

/-- The queue holds the last elements of what it once held and the burst. -/
def Kept (cap : Nat) (w : Newest α) : Prop :=
  ∃ old, w.queue = (old ++ w.burst).rtake cap

theorem Kept.init {cap : Nat} {q : List α} (h : q.length ≤ cap) :
    Kept cap { queue := q, burst := [] } :=
  ⟨q, by rw [List.append_nil, rtake_of_length_le h]⟩

theorem Kept.add {cap : Nat} {w : Newest α} (h : w.Kept cap) (es : List α) :
    (w.add cap es).Kept cap := by
  rcases h with ⟨old, hqueue⟩
  refine ⟨old, ?_⟩
  rw [Newest.add, hqueue, rtake_append_rtake, List.append_assoc]

theorem Kept.length_le {cap : Nat} {w : Newest α} (h : w.Kept cap) : w.queue.length ≤ cap := by
  rcases h with ⟨old, hqueue⟩
  rw [hqueue, List.rtake, List.length_drop]
  omega

theorem Kept.pop {cap : Nat} {w : Newest α} (h : w.Kept cap) : w.pop.Kept cap := by
  have hle := h.length_le
  exact .init (by rw [List.length_tail]; omega)

theorem Kept.empty (cap : Nat) : (empty : Newest α).Kept cap :=
  .init (Nat.zero_le cap)

/-- After a burst that is long enough the queue holds its last elements, whatever was there. -/
theorem Kept.queue_eq {cap : Nat} {w : Newest α} (h : w.Kept cap) (hlong : cap ≤ w.burst.length) :
    w.queue = w.burst.rtake cap := by
  rcases h with ⟨old, hqueue⟩
  rw [hqueue, rtake_append_of_le hlong]

/-! ## Against a queue that refuses the newest -/

/-- Moving the first element of a list to its end, as `e`, changes nothing exactly if all elements
are `e`. -/
theorem cons_eq_append_iff (a e : α) (l : List α) :
    a :: l = l ++ [e] ↔ ∀ x ∈ a :: l, x = e := by
  induction l generalizing a with
  | nil => simp
  | cons b l ih =>
      rw [List.cons_append, List.cons.injEq, ih b, List.forall_mem_cons (l := b :: l)]
      refine and_congr_left fun hall => ?_
      rw [hall b List.mem_cons_self]

theorem append_take_eq_rtake_iff {cap : Nat} (hcap : 0 < cap) {q : List α}
    (hq : q.length ≤ cap) (e : α) :
    q ++ [e].take (cap - q.length) = (q ++ [e]).rtake cap ↔
      q.length < cap ∨ ∀ x ∈ q, x = e := by
  by_cases hroom : q.length < cap
  · have hone : [e].take (cap - q.length) = [e] := List.take_of_length_le (by simp; omega)
    rw [hone, rtake_of_length_le (by simp; omega)]
    exact iff_of_true rfl (.inl hroom)
  · have hfull : q.length = cap := Nat.le_antisymm hq (Nat.le_of_not_lt hroom)
    cases q with
    | nil => exact absurd hfull (Nat.ne_of_lt hcap)
    | cons a l =>
        -- The queue that refuses stays as it is, the other one moves on by one place.
        have hmoved : (a :: l ++ [e]).rtake cap = l ++ [e] := by
          rw [List.rtake, ← hfull]
          simp
        rw [hfull, Nat.sub_self, List.take_zero, List.append_nil, hmoved, cons_eq_append_iff]
        exact ⟨.inr, fun h => h.resolve_left (Nat.lt_irrefl cap)⟩

end Newest
end Lib
end Netdiag
