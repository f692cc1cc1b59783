import Netdiag.Lib.Buffer
import Netdiag.Queue

/-!
# Buffer — the queue of a context as callers see it

Callers of a context cannot see where in the ring its events are.  To them the queue is a buffer,
and `qinit`, `qpush` and `qpop` are the operations of one.
-/

namespace Netdiag

open Lib

/-- The buffer for a size that is asked for: there is another one for a size of 0, and a greatest
size. -/
def newBuffer {E : Type} (dflt size : Nat) : Buffer E where
  places := if size = 0 then dflt else if size < 32 then size else 32
  items := []

namespace QueueCtx

variable {R E : Type}

def buffer (c : QueueCtx R E) : Buffer E :=
  ⟨c.qsz, c.queued⟩

theorem buffer_push (c : QueueCtx R E) (e : E) : (c.push e).1.buffer = c.buffer.push e := by
  have hqsz : (c.push e).1.qsz = c.qsz := c.qsz_pushAll [e]
  have hqueued : (c.push e).1.queued = c.queued ++ [e].take c.free := c.queued_pushAll [e]
  rw [buffer, hqsz, hqueued, Buffer.push]
  by_cases hroom : c.queued.length < c.qsz
  · have hfree : 1 ≤ c.free := Nat.sub_pos_of_lt hroom
    rw [List.take_of_length_le hfree]
    exact (if_pos hroom).symm
  · have hfree : c.free = 0 := Nat.sub_eq_zero_of_le (Nat.le_of_not_lt hroom)
    rw [hfree, List.take_zero, List.append_nil]
    exact (if_neg hroom).symm

theorem buffer_pushAll (c : QueueCtx R E) (es : List E) :
    (c.pushAll es).buffer = c.buffer.pushAll es := by
  induction es generalizing c with
  | nil => rfl
  | cons e es ih =>
      have hrest := ih (c.push e).1
      rw [buffer_push] at hrest
      exact hrest

theorem buffer_pop (c : QueueCtx R E) (e : E) :
    ((c.pop e).1, (c.pop e).2.1.buffer, (c.pop e).2.2) = c.buffer.pop e := by
  cases hq : c.queued with
  | nil =>
      rw [pop_of_nil hq, buffer, hq]
      rfl
  | cons front rest =>
      rcases pop_of_cons hq e with ⟨c', hpop, _, hrest, hqsz⟩
      rw [hpop, buffer, buffer, hq, hrest, hqsz]
      rfl

/-- What the owner of a buffer gets of it, the caller of a context gets. -/
theorem pop_of_buffer {c : QueueCtx R E} {b : Buffer E} (h : c.buffer = b) (e : E) :
    (c.pop e).1 = (b.pop e).1 ∧ (c.pop e).2.1.buffer = (b.pop e).2.1 ∧
      (c.pop e).2.2 = (b.pop e).2.2 := by
  have hpop := c.buffer_pop e
  rwa [h, Prod.mk.injEq, Prod.mk.injEq] at hpop

theorem role_pop (c : QueueCtx R E) (e : E) : (c.pop e).2.1.role = c.role := by
  cases hq : c.queued with
  | nil => rw [pop_of_nil hq]
  | cons front rest =>
      rcases pop_of_cons hq e with ⟨c', hpop, hrole, _⟩
      rw [hpop, hrole]

theorem buffer_reset (dflt : Nat) (hdflt : 0 < dflt) (c : QueueCtx R E) (role : R) :
    (init dflt hdflt role c.ring.1 c.qsz).buffer = c.buffer.clear := by
  rw [buffer, qsz_init_self, queued_init]
  rfl

theorem buffer_init {dflt : Nat} (hdflt : 0 < dflt) (hle : dflt ≤ 32) (role : R)
    (r : RawRing E maxQ) (size : Nat) :
    (init dflt hdflt role r size).buffer = newBuffer dflt size := by
  have hplaces : (init dflt hdflt role r size).qsz =
      if size = 0 then dflt else if size < 32 then size else 32 := by
    show (if (if size ≠ 0 then size else dflt) > maxQ then maxQ
      else if size ≠ 0 then size else dflt) = _
    rw [ite_not, maxQ]
    split_ifs <;> omega
  rw [buffer, hplaces, queued_init]
  rfl

end QueueCtx
end Netdiag
