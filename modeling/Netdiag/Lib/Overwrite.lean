import Netdiag.Lib.Framing

/-!
# Overwrite — entries of a list replaced by as many others

`overwrite xs i ys` puts `ys` over the entries of `xs` from place `i` on.  In a stream of items,
overwriting the inside of one of them, such that it still tells the same length, replaces that
item and no other (`Framing.Offset.split_overwrite`).
-/

namespace Netdiag
namespace Lib

variable {α : Type*}

def overwrite (xs : List α) (i : Nat) (ys : List α) : List α :=
  xs.take i ++ (ys ++ xs.drop (i + ys.length))

theorem length_overwrite {xs ys : List α} {i : Nat} (h : i + ys.length ≤ xs.length) :
    (overwrite xs i ys).length = xs.length := by
  rw [overwrite, List.length_append, List.length_append, List.length_take, List.length_drop]
  omega

/-! ## Parts of the list -/

theorem take_overwrite_of_le {xs : List α} {k i : Nat} (hk : k ≤ i) (hi : i ≤ xs.length)
    (ys : List α) : (overwrite xs i ys).take k = xs.take k := by
  rw [overwrite, List.take_append_of_le_length (by rw [List.length_take]; omega), List.take_take,
    Nat.min_eq_left hk]

theorem drop_overwrite {xs : List α} {k i : Nat} (hk : k ≤ i) (hi : i ≤ xs.length)
    (ys : List α) : (overwrite xs i ys).drop k = overwrite (xs.drop k) (i - k) ys := by
  have hend : k + (i - k + ys.length) = i + ys.length := by omega
  rw [overwrite, overwrite, List.drop_append_of_le_length (by rw [List.length_take]; omega),
    List.drop_take, List.drop_drop, hend]

theorem take_overwrite {xs ys : List α} {i k : Nat} (hk : i + ys.length ≤ k)
    (hlen : k ≤ xs.length) : (overwrite xs i ys).take k = overwrite (xs.take k) i ys := by
  have hi : (xs.take i).length = i := List.length_take_of_le (by omega)
  have hrest : k - (i + ys.length) = k - i - ys.length := by omega
  rw [overwrite, overwrite, List.take_append, hi, List.take_append, List.take_of_length_le
    (by omega : (xs.take i).length ≤ k), List.take_of_length_le (by omega : ys.length ≤ k - i),
    List.take_take, Nat.min_eq_left (by omega : i ≤ k), List.drop_take, hrest]

theorem drop_overwrite_of_le {xs ys : List α} {i k : Nat} (hk : i + ys.length ≤ k)
    (hlen : k ≤ xs.length) : (overwrite xs i ys).drop k = xs.drop k := by
  have hi : (xs.take i).length = i := List.length_take_of_le (by omega)
  rw [overwrite, List.drop_append, hi, List.drop_append, List.drop_eq_nil_of_le
    (by omega : (xs.take i).length ≤ k), List.drop_eq_nil_of_le (by omega : ys.length ≤ k - i),
    List.drop_drop, List.nil_append, List.nil_append]
  congr 1
  omega

/-- What is written to the end of the list is its end. -/
theorem drop_overwrite_end {xs ys : List α} {i : Nat} (h : i + ys.length = xs.length) :
    (overwrite xs i ys).drop i = ys := by
  have hi : (xs.take i).length = i := List.length_take_of_le (by omega)
  rw [overwrite, List.drop_append_of_le_length (Nat.le_of_eq hi.symm), List.drop_take,
    Nat.sub_self, List.take_zero, List.nil_append, List.drop_eq_nil_of_le (Nat.le_of_eq h.symm),
    List.append_nil]

/-! ## Streams of items -/

namespace Framing

variable {F : Framing α}

/-- What lies behind a place where a walk stands are padded items. -/
theorem Offset.padded {xs : List α} {o : Nat} (h : F.Offset xs o) (hle : o ≤ xs.length) :
    ∃ ms, F.Padded ms (xs.take o) := by
  induction h with
  | start => exact ⟨[], .nil⟩
  | @next o n _ hs ih =>
      have hstride := F.le_stride n
      obtain ⟨ms, hms⟩ := ih (by omega)
      have hlen : ((xs.drop o).take n).length = n := List.length_take_of_le (F.size_le hs)
      have hitem : F.Item ((xs.drop o).take n) := by
        have hlocal := F.size_local hs []
        rw [List.append_nil] at hlocal
        exact hlocal.trans (congrArg some hlen.symm)
      -- The stride is the item and its padding, and all of it is there.
      have hgap : ((xs.drop o).take n).length +
          (((xs.drop o).drop n).take (F.stride n - n)).length =
            F.stride ((xs.drop o).take n).length := by
        rw [hlen, List.length_take, List.length_drop, List.length_drop]
        omega
      have hlast : (xs.drop o).take (F.stride n) =
          (xs.drop o).take n ++ (((xs.drop o).drop n).take (F.stride n - n) ++ []) := by
        rw [List.append_nil, ← List.take_add]
        congr 1
        omega
      refine ⟨ms ++ [(xs.drop o).take n], ?_⟩
      rw [List.take_add, hlast]
      exact hms.append (.cons hitem hgap .nil)

/-- What lies ahead of a place where a walk stands is decoded as if it stood alone. -/
theorem Offset.split_take_append {xs : List α} {o : Nat} (h : F.Offset xs o)
    (hle : o ≤ xs.length) (ys : List α) :
    F.split (xs.take o ++ ys) = F.split (xs.take o) ++ F.split ys := by
  obtain ⟨ms, hms⟩ := h.padded hle
  rw [split_append_of_padded hms, hms.split_eq]

/-- The items before an item, the item, and those after it. -/
theorem Offset.split_eq {xs : List α} {o n : Nat} (h : F.Offset xs o)
    (hs : F.size (xs.drop o) = some n) :
    F.split xs =
      F.split (xs.take o) ++ (xs.drop o).take n :: F.split (xs.drop (o + F.stride n)) := by
  have hle := add_size_le hs
  have hsplit := h.split_take_append (by omega) (xs.drop o)
  rw [List.take_append_drop, split_drop_of_some hs] at hsplit
  exact hsplit

/-- Overwriting the inside of an item replaces it, and leaves the items around it. -/
theorem Offset.split_overwrite {xs ys : List α} {o n i : Nat} (h : F.Offset xs o)
    (hs : F.size (xs.drop o) = some n) (hend : i + ys.length ≤ n)
    (hsame : F.size (overwrite (xs.drop o) i ys) = some n) :
    F.split (overwrite xs (o + i) ys) =
      F.split (xs.take o) ++
        overwrite ((xs.drop o).take n) i ys :: F.split (xs.drop (o + F.stride n)) := by
  have hle := add_size_le hs
  have hstride := F.le_stride n
  have hlen : (xs.drop o).length = xs.length - o := List.length_drop
  have hback : (overwrite xs (o + i) ys).drop o = overwrite (xs.drop o) i ys := by
    rw [drop_overwrite (by omega) (by omega), Nat.add_sub_cancel_left]
  have hinput : overwrite xs (o + i) ys = xs.take o ++ overwrite (xs.drop o) i ys := by
    rw [← hback, ← take_overwrite_of_le (by omega : o ≤ o + i) (by omega) ys,
      List.take_append_drop]
  -- What comes after the item is what came after it before.
  have hrest : F.split ((overwrite (xs.drop o) i ys).drop (F.stride n)) =
      F.split (xs.drop (o + F.stride n)) := by
    by_cases hin : F.stride n ≤ (xs.drop o).length
    · rw [drop_overwrite_of_le (by omega) hin, List.drop_drop]
    · rw [List.drop_eq_nil_of_le (by rw [length_overwrite (by omega)]; omega),
        List.drop_eq_nil_of_le (by omega)]
  calc
    F.split (overwrite xs (o + i) ys)
        = F.split (xs.take o) ++ F.split (overwrite (xs.drop o) i ys) := by
          rw [hinput, h.split_take_append (by omega)]
    _ = F.split (xs.take o) ++ (overwrite (xs.drop o) i ys).take n ::
          F.split ((overwrite (xs.drop o) i ys).drop (F.stride n)) := by
          rw [split_of_some hsame]
    _ = F.split (xs.take o) ++
          overwrite ((xs.drop o).take n) i ys :: F.split (xs.drop (o + F.stride n)) := by
          rw [take_overwrite hend (by omega), hrest]

end Framing
end Lib
end Netdiag
