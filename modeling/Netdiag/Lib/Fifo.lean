import Mathlib.Data.List.Basic
import Mathlib.Tactic.Common
import Netdiag.Lib.Ring

/-!
# Fifo — what a bounded queue is for

The log of a queue says what became of each operation: an element was accepted or refused, an
element was returned or the queue was empty, or the queue was reset.  `Fifo cap log items` says
that a bounded first-in first-out queue of `cap` places can have this log, and that it then holds
`items`.

The ledger of a log has the elements that were accepted since the last reset, and those that were
returned.  A queue has returned the first of what it accepted, and holds the rest (`Fifo.balance`).
A `Ring` is such a queue (`Fifo.push`, `Fifo.pop`).
-/

namespace Netdiag
namespace Lib

universe u

variable {α : Type u}

/-! ## Logs -/

inductive Entry (α : Type u) where
  | accepted (a : α)
  | refused (a : α)
  | returned (a : α)
  | empty
  | reset
  deriving DecidableEq, Repr

/-- The elements that were accepted and returned since the last reset, in order. -/
structure Ledger (α : Type u) where
  accepted : List α
  returned : List α
  deriving DecidableEq, Repr

def Ledger.enter (l : Ledger α) : Entry α → Ledger α
  | .accepted a => { l with accepted := l.accepted ++ [a] }
  | .returned a => { l with returned := l.returned ++ [a] }
  | .reset => { accepted := [], returned := [] }
  | .refused _ | .empty => l

def ledger (log : List (Entry α)) : Ledger α :=
  log.foldl Ledger.enter { accepted := [], returned := [] }

theorem ledger_append (log : List (Entry α)) (entry : Entry α) :
    ledger (log ++ [entry]) = (ledger log).enter entry := by
  rw [ledger, List.foldl_append]
  rfl

/-! ## The abstract queue -/

inductive Fifo (cap : Nat) : List (Entry α) → List α → Prop where
  | nil : Fifo cap [] []
  | accepted {log : List (Entry α)} {items : List α} (a : α) : Fifo cap log items →
      items.length < cap → Fifo cap (log ++ [.accepted a]) (items ++ [a])
  | refused {log : List (Entry α)} {items : List α} (a : α) : Fifo cap log items →
      items.length = cap → Fifo cap (log ++ [.refused a]) items
  | returned {log : List (Entry α)} {a : α} {items : List α} : Fifo cap log (a :: items) →
      Fifo cap (log ++ [.returned a]) items
  | empty {log : List (Entry α)} : Fifo cap log [] → Fifo cap (log ++ [.empty]) []
  | reset {log : List (Entry α)} {items : List α} : Fifo cap log items →
      Fifo cap (log ++ [.reset]) []

namespace Fifo

variable {cap : Nat} {log : List (Entry α)} {items : List α}

/-- The queue has returned the first of the elements that it accepted and holds the others. -/
theorem balance (h : Fifo cap log items) :
    (ledger log).accepted = (ledger log).returned ++ items := by
  induction h with
  | nil => rfl
  | accepted a _ _ ih => rw [ledger_append, Ledger.enter, ih, List.append_assoc]
  | refused a _ _ ih =>
      rw [ledger_append]
      exact ih
  | returned _ ih =>
      rw [ledger_append, Ledger.enter, ih, List.append_assoc]
      rfl
  | empty _ ih =>
      rw [ledger_append]
      exact ih
  | reset _ _ => rw [ledger_append]; rfl

/-- What was returned is the front of what was accepted. -/
theorem returned_prefix (h : Fifo cap log items) :
    (ledger log).returned <+: (ledger log).accepted :=
  ⟨items, h.balance.symm⟩

/-- The queue is empty exactly if everything that was accepted has been returned. -/
theorem eq_nil_iff (h : Fifo cap log items) :
    items = [] ↔ (ledger log).returned = (ledger log).accepted := by
  rw [h.balance]
  exact List.self_eq_append_right.symm

/-- The next element is the first one that has not been returned. -/
theorem head?_eq (h : Fifo cap log items) :
    items.head? = (ledger log).accepted[(ledger log).returned.length]? := by
  rw [h.balance, List.getElem?_append_right (Nat.le_refl _), Nat.sub_self, List.head?_eq_getElem?]

/-! ## Rings -/

variable {N : Nat} {r : Ring α N}

/-- The entry for an element that a program has tried to queue. -/
def pushed (r : Ring α N) (a : α) : Entry α :=
  if (r.push a).2 = 0 then .accepted a else .refused a

/-- The entry for an attempt to take an element. -/
def popped (r : Ring α N) : Entry α :=
  match r.pop.2 with
  | some a => .returned a
  | none => .empty

theorem push (h : Fifo r.qsz log r.items) (a : α) :
    Fifo (r.push a).1.qsz (log ++ [pushed r a]) (r.push a).1.items := by
  have hle := r.length_items_le
  rw [Ring.qsz_push, Ring.items_push, pushed, Ring.push_snd]
  -- The result is zero exactly if there is room, so two of the four cases do not arise.
  split_ifs with hroom hzero hzero
  · exact h.accepted a hroom
  · exact absurd rfl hzero
  · exact absurd hzero (by decide)
  · exact h.refused a (Nat.le_antisymm hle (Nat.le_of_not_lt hroom))

theorem pop (h : Fifo r.qsz log r.items) :
    Fifo r.pop.1.qsz (log ++ [popped r]) r.pop.1.items := by
  rw [Ring.qsz_pop, Ring.items_pop, popped, Ring.pop_snd]
  cases hitems : r.items with
  | nil =>
      rw [hitems] at h
      exact h.empty
  | cons a rest =>
      rw [hitems] at h
      exact h.returned

end Fifo
end Lib
end Netdiag
