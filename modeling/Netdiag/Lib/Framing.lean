import Mathlib.Data.List.Basic
import Mathlib.Tactic.Common
import Netdiag.Lib.Loop

/-!
# Framing — streams of self-delimiting items

Many binary formats are a sequence of items, each of which tells its own length and is followed
by the next one at an aligned distance.  A `Framing` is what such a format needs to say:

- `size xs` : the length of the item at the front of `xs`, if a complete one stands there,
- `stride n` : how far after the start of an item of length `n` the next one starts.

`split` is the reference decoder, a recursion on the remaining input; `Offset` says where a walk
over the input stands.  Decoding undoes concatenation (`split_of_packs`), and a loop which walks
the input by index computes a fold over `split` (`run_eq_foldl_split`).
-/

namespace Netdiag
namespace Lib

/-- A format of self-delimiting items; an item is found by looking at no more than itself. -/
structure Framing (α : Type*) where
  size : List α → Option Nat
  stride : Nat → Nat
  size_pos : ∀ {xs n}, size xs = some n → 0 < n
  size_le : ∀ {xs n}, size xs = some n → n ≤ xs.length
  size_local : ∀ {xs n}, size xs = some n → ∀ ys, size (xs.take n ++ ys) = some n
  le_stride : ∀ n, n ≤ stride n

namespace Framing

variable {α σ ε : Type*} (F : Framing α)

/-! ## The reference decoder -/

def splitAux : Nat → List α → List (List α)
  | 0, _ => []
  | fuel + 1, xs =>
      match F.size xs with
      | none => []
      | some n => xs.take n :: splitAux fuel (xs.drop (F.stride n))

/-- The items of the longest well-formed prefix of the input. -/
def split (xs : List α) : List (List α) :=
  F.splitAux xs.length xs

/-- Items in a row from an offset on, each with the offset at which it starts. -/
def place : Nat → List (List α) → List (Nat × List α)
  | _, [] => []
  | o, m :: ms => (o, m) :: place (o + F.stride m.length) ms

/-- The decoding, with the place of every item. -/
def placed (xs : List α) : List (Nat × List α) :=
  F.place 0 (F.split xs)

variable {F}

theorem size_nil : F.size [] = none := by
  cases h : F.size [] with
  | none => rfl
  | some n =>
      have hpos := F.size_pos h
      have hle := F.size_le h
      simp at hle
      omega

theorem splitAux_eq_split {fuel : Nat} {xs : List α} (hfuel : xs.length ≤ fuel) :
    F.splitAux fuel xs = F.split xs := by
  induction fuel using Nat.strongRecOn generalizing xs with
  | _ fuel ih =>
      cases fuel with
      | zero =>
          have hnil : xs = [] := List.length_eq_zero_iff.1 (by omega)
          subst hnil
          rfl
      | succ fuel =>
          cases xs with
          | nil => simp [split, splitAux, size_nil]
          | cons x xs =>
              simp only [split, List.length_cons, splitAux]
              cases hs : F.size (x :: xs) with
              | none => rfl
              | some n =>
                  -- Both sides go on with the same rest, and both have fuel enough for it.
                  have hpos := F.size_pos hs
                  have hstride := F.le_stride n
                  have hrest : ((x :: xs).drop (F.stride n)).length ≤ xs.length := by
                    simp only [List.length_drop, List.length_cons]
                    omega
                  simp only [List.length_cons] at hfuel
                  dsimp only
                  rw [ih fuel (by omega) (by omega), ih xs.length (by omega) hrest]

theorem split_of_none {xs : List α} (h : F.size xs = none) : F.split xs = [] := by
  cases xs with
  | nil => rfl
  | cons x xs => simp [split, splitAux, h]

theorem split_of_some {xs : List α} {n : Nat} (h : F.size xs = some n) :
    F.split xs = xs.take n :: F.split (xs.drop (F.stride n)) := by
  cases xs with
  | nil => simp [size_nil] at h
  | cons x xs =>
      have hpos := F.size_pos h
      have hstride := F.le_stride n
      have hrest : ((x :: xs).drop (F.stride n)).length ≤ xs.length := by
        simp only [List.length_drop, List.length_cons]
        omega
      have hstep : F.split (x :: xs) =
          (x :: xs).take n :: F.splitAux xs.length ((x :: xs).drop (F.stride n)) := by
        simp only [split, List.length_cons, splitAux, h]
      rw [hstep, splitAux_eq_split hrest]

@[simp] theorem split_nil : F.split ([] : List α) = [] := rfl

/-! ## Complete items and their concatenation -/

/-- The list is one complete item. -/
def Item (F : Framing α) (m : List α) : Prop :=
  F.size m = some m.length

instance (F : Framing α) (m : List α) : Decidable (F.Item m) :=
  inferInstanceAs (Decidable (_ = _))

theorem Item.size_append {m : List α} (h : F.Item m) (rest : List α) :
    F.size (m ++ rest) = some m.length := by
  have hlocal := F.size_local h rest
  rwa [List.take_length] at hlocal

/-- The input is the concatenation of the items, each padded up to its stride; the last one may
come without its padding. -/
inductive Packs (F : Framing α) : List (List α) → List α → Prop where
  | nil : Packs F [] []
  | last {m : List α} : F.Item m → Packs F [m] m
  | cons {m gap rest : List α} {ms : List (List α)} :
      F.Item m → m.length + gap.length = F.stride m.length → Packs F ms rest →
        Packs F (m :: ms) (m ++ (gap ++ rest))

/-- Decoding undoes concatenation. -/
theorem split_of_packs {ms : List (List α)} {xs : List α} (h : F.Packs ms xs) :
    F.split xs = ms := by
  induction h with
  | nil => rfl
  | @last m hm =>
      have hdrop : m.drop (F.stride m.length) = [] :=
        List.drop_eq_nil_of_le (F.le_stride m.length)
      rw [split_of_some hm, hdrop, List.take_length, split_nil]
  | @cons m gap rest ms hm hgap _ ih =>
      have hdrop : (m ++ (gap ++ rest)).drop (F.stride m.length) = rest := by
        rw [← hgap, ← List.append_assoc, ← List.length_append, List.drop_left]
      rw [split_of_some (hm.size_append _), hdrop, ih, List.take_left]

/-! ## Inputs in pieces -/

/-- The input is the concatenation of the items, each padded up to its stride. -/
inductive Padded (F : Framing α) : List (List α) → List α → Prop where
  | nil : Padded F [] []
  | cons {m gap rest : List α} {ms : List (List α)} :
      F.Item m → m.length + gap.length = F.stride m.length → Padded F ms rest →
        Padded F (m :: ms) (m ++ (gap ++ rest))

/-- What comes after padded items is decoded as if it stood alone. -/
theorem split_append_of_padded {ms : List (List α)} {xs : List α} (h : F.Padded ms xs)
    (ys : List α) : F.split (xs ++ ys) = ms ++ F.split ys := by
  induction h with
  | nil => rfl
  | @cons m gap rest ms hm hgap _ ih =>
      have hinput : m ++ (gap ++ rest) ++ ys = m ++ (gap ++ (rest ++ ys)) := by
        rw [List.append_assoc, List.append_assoc]
      have hdrop : (m ++ (gap ++ (rest ++ ys))).drop (F.stride m.length) = rest ++ ys := by
        rw [← hgap, ← List.append_assoc, ← List.length_append, List.drop_left]
      rw [hinput, split_of_some (hm.size_append _), hdrop, ih, List.take_left, List.cons_append]

theorem Padded.split_eq {ms : List (List α)} {xs : List α} (h : F.Padded ms xs) :
    F.split xs = ms := by
  have hsplit := split_append_of_padded h []
  rwa [List.append_nil, split_nil, List.append_nil] at hsplit

theorem Padded.packs {ms : List (List α)} {xs : List α} (h : F.Padded ms xs) : F.Packs ms xs := by
  induction h with
  | nil => exact .nil
  | cons hm hgap _ ih => exact .cons hm hgap ih

theorem Padded.nil_or_size {ms : List (List α)} {xs : List α} (h : F.Padded ms xs) :
    xs = [] ∨ ∃ n, F.size xs = some n := by
  cases h with
  | nil => exact .inl rfl
  | cons hm _ _ => exact .inr ⟨_, hm.size_append _⟩

theorem Padded.append {ms ns : List (List α)} {xs ys : List α} (h : F.Padded ms xs)
    (h' : F.Padded ns ys) : F.Padded (ms ++ ns) (xs ++ ys) := by
  induction h with
  | nil => exact h'
  | cons hm hgap _ ih =>
      rw [List.append_assoc, List.append_assoc]
      exact .cons hm hgap ih

/-- An item that is complete in the first part of the input is there in the whole input. -/
theorem size_of_size_take {xs : List α} {k n : Nat} (h : F.size (xs.take k) = some n) :
    n ≤ k ∧ F.size xs = some n := by
  have hle := F.size_le h
  have hlocal := F.size_local h (xs.drop n)
  rw [List.length_take] at hle
  have hn : n ≤ k := by omega
  rw [List.take_take, Nat.min_eq_left hn, List.take_append_drop] at hlocal
  exact ⟨hn, hlocal⟩

/-- Cutting the input off loses items at the end and makes no other ones. -/
theorem split_take_prefix (xs : List α) (k : Nat) : F.split (xs.take k) <+: F.split xs := by
  induction hlen : xs.length using Nat.strongRecOn generalizing xs k with
  | _ len ih =>
      cases hs : F.size (xs.take k) with
      | none =>
          rw [split_of_none hs]
          exact List.nil_prefix
      | some n =>
          rcases size_of_size_take hs with ⟨hn, hwhole⟩
          have hpos := F.size_pos hwhole
          have hle := F.size_le hwhole
          have hstride := F.le_stride n
          have hrest : (xs.drop (F.stride n)).length < len := by
            rw [List.length_drop]
            omega
          rw [split_of_some hs, split_of_some hwhole, List.take_take, Nat.min_eq_left hn,
            List.drop_take]
          exact List.prefix_cons_inj _ |>.2 (ih _ hrest _ _ rfl)

/-! ## Where a walk stands -/

/-- The offsets at which a walk over the input looks for an item. -/
inductive Offset (F : Framing α) (xs : List α) : Nat → Prop where
  | start : Offset F xs 0
  | next {o n : Nat} : Offset F xs o → F.size (xs.drop o) = some n →
      Offset F xs (o + F.stride n)

theorem add_size_le {xs : List α} {o n : Nat} (h : F.size (xs.drop o) = some n) :
    o + n ≤ xs.length := by
  have hpos := F.size_pos h
  have hle := F.size_le h
  rw [List.length_drop] at hle
  omega

theorem split_drop_of_some {xs : List α} {o n : Nat} (h : F.size (xs.drop o) = some n) :
    F.split (xs.drop o) = (xs.drop o).take n :: F.split (xs.drop (o + F.stride n)) := by
  rw [split_of_some h, List.drop_drop]

theorem Offset.split_suffix {xs : List α} {o : Nat} (h : F.Offset xs o) :
    F.split (xs.drop o) <:+ F.split xs := by
  induction h with
  | start => exact List.suffix_rfl
  | next _ hs ih =>
      rw [split_drop_of_some hs] at ih
      exact (List.suffix_cons _ _).trans ih

theorem Offset.mem_split {xs : List α} {o n : Nat} (h : F.Offset xs o)
    (hs : F.size (xs.drop o) = some n) : (xs.drop o).take n ∈ F.split xs := by
  have hsuffix := h.split_suffix
  rw [split_drop_of_some hs] at hsuffix
  exact hsuffix.mem List.mem_cons_self

/-- What lies ahead of a walk over padded items is padded items. -/
theorem Offset.padded_drop {ms : List (List α)} {xs : List α} {o : Nat} (h : F.Offset xs o)
    (hxs : F.Padded ms xs) : ∃ ns, F.Padded ns (xs.drop o) := by
  induction h with
  | start => exact ⟨ms, hxs⟩
  | @next o n _ hs ih =>
      rcases ih with ⟨ns, hns⟩
      rw [← List.drop_drop]
      generalize xs.drop o = ys at hs hns ⊢
      cases hns with
      | nil =>
          rw [F.size_nil] at hs
          cases hs
      | @cons m gap rest ns hm hgap hrest =>
          rw [hm.size_append] at hs
          cases hs
          rw [← hgap, ← List.append_assoc, ← List.length_append, List.drop_left]
          exact ⟨ns, hrest⟩

variable (F) in
/-- Induction on what is left of the input: from the offset after the item, where one stands. -/
theorem induction_left (xs : List α) {motive : Nat → Prop}
    (hnone : ∀ o, F.size (xs.drop o) = none → motive o)
    (hsome : ∀ o n, F.size (xs.drop o) = some n → motive (o + F.stride n) → motive o) (o : Nat) :
    motive o := by
  have key : ∀ k o, xs.length - o ≤ k → motive o := by
    intro k
    induction k with
    | zero =>
        intro o hk
        refine hnone o ?_
        rw [List.drop_eq_nil_of_le (by omega), size_nil]
    | succ k ih =>
        intro o hk
        cases hs : F.size (xs.drop o) with
        | none => exact hnone o hs
        | some n =>
            have hpos := F.size_pos hs
            have hstride := F.le_stride n
            have hle := add_size_le hs
            exact hsome o n hs (ih _ (by omega))
  exact key _ o (Nat.le_refl _)

/-- Every item of the decoding stands at one of the offsets of the walk. -/
theorem exists_offset_of_mem_split {xs m : List α} (h : m ∈ F.split xs) :
    ∃ o n, F.Offset xs o ∧ F.size (xs.drop o) = some n ∧ m = (xs.drop o).take n := by
  have key : ∀ o, F.Offset xs o → m ∈ F.split (xs.drop o) →
      ∃ o n, F.Offset xs o ∧ F.size (xs.drop o) = some n ∧ m = (xs.drop o).take n := by
    intro o
    induction o using F.induction_left xs with
    | hnone o hs =>
        intro _ hm
        rw [split_of_none hs] at hm
        cases hm
    | hsome o n hs ih =>
        intro ho hm
        rw [split_drop_of_some hs, List.mem_cons] at hm
        rcases hm with rfl | hm
        · exact ⟨o, n, ho, hs, rfl⟩
        · exact ih (ho.next hs) hm
  exact key 0 Offset.start (by simpa using h)

/-! ## Where the items stand -/

@[simp] theorem map_snd_place (o : Nat) (ms : List (List α)) :
    (F.place o ms).map Prod.snd = ms := by
  induction ms generalizing o with
  | nil => rfl
  | cons m ms ih => simp [place, ih]

theorem le_of_mem_place {o : Nat} {ms : List (List α)} {a : Nat × List α}
    (h : a ∈ F.place o ms) : o ≤ a.1 := by
  induction ms generalizing o with
  | nil => cases h
  | cons m ms ih =>
      rcases List.mem_cons.1 h with rfl | h
      · exact Nat.le_refl _
      · exact Nat.le_trans (Nat.le_add_right o _) (ih h)

/-- An item ends before all later ones start. -/
theorem pairwise_place (o : Nat) (ms : List (List α)) :
    (F.place o ms).Pairwise fun a b => a.1 + F.stride a.2.length ≤ b.1 := by
  induction ms generalizing o with
  | nil => exact .nil
  | cons m ms ih => exact .cons (fun _ h => le_of_mem_place h) (ih _)

/-- The next item starts after the stride of the one before it. -/
theorem isChain_place (o : Nat) (ms : List (List α)) :
    (F.place o ms).IsChain fun a b => b.1 = a.1 + F.stride a.2.length := by
  induction ms generalizing o with
  | nil => exact .nil
  | cons m ms ih =>
      cases ms with
      | nil => exact .singleton _
      | cons m' ms => exact .cons_cons rfl (ih _)

theorem place_add (o k : Nat) (ms : List (List α)) :
    F.place (k + o) ms = (F.place o ms).map fun a => (k + a.1, a.2) := by
  induction ms generalizing o with
  | nil => rfl
  | cons m ms ih => rw [place, place, List.map_cons, Nat.add_assoc, ih]

/-- The decoding of the input, from the decoding of what comes after the first item. -/
theorem placed_of_some {xs : List α} {n : Nat} (h : F.size xs = some n) :
    F.placed xs =
      (0, xs.take n) :: (F.placed (xs.drop (F.stride n))).map fun a => (F.stride n + a.1, a.2) := by
  rw [placed, split_of_some h, place, List.length_take_of_le (F.size_le h), Nat.zero_add]
  exact congrArg _ (place_add 0 (F.stride n) _)

theorem place_split_of_some {xs : List α} {o n : Nat} (h : F.size (xs.drop o) = some n) :
    F.place o (F.split (xs.drop o)) =
      (o, (xs.drop o).take n) :: F.place (o + F.stride n) (F.split (xs.drop (o + F.stride n))) := by
  rw [split_drop_of_some h, place, List.length_take_of_le (F.size_le h)]

/-- A placed item is the one that stands in the input at its place. -/
theorem size_of_mem_placed {xs : List α} {a : Nat × List α} (h : a ∈ F.placed xs) :
    F.size (xs.drop a.1) = some a.2.length ∧ a.2 = (xs.drop a.1).take a.2.length := by
  have key : ∀ o, a ∈ F.place o (F.split (xs.drop o)) →
      F.size (xs.drop a.1) = some a.2.length ∧ a.2 = (xs.drop a.1).take a.2.length := by
    intro o
    induction o using F.induction_left xs with
    | hnone o hs =>
        intro ha
        rw [split_of_none hs] at ha
        cases ha
    | hsome o n hs ih =>
        intro ha
        rw [place_split_of_some hs] at ha
        rcases List.mem_cons.1 ha with rfl | ha
        · have hlen : ((xs.drop o).take n).length = n := List.length_take_of_le (F.size_le hs)
          exact ⟨hlen.symm ▸ hs, hlen.symm ▸ rfl⟩
        · exact ih ha
  exact key 0 h

/-! ## Walking by index -/

/-- A loop which leaves where no item stands, and otherwise acts on the item and moves on by its
stride, folds its action over the decoding of what lies ahead. -/
theorem run_eq_foldl_split (xs : List α) (act : σ → List α → σ)
    {turn : Nat × σ → Except ε (Turn (Nat × σ) σ)}
    (hleave : ∀ o s, F.Offset xs o → F.size (xs.drop o) = none →
      turn (o, s) = .ok (.leave s))
    (hagain : ∀ o s n, F.Offset xs o → F.size (xs.drop o) = some n →
      turn (o, s) = .ok (.again (o + F.stride n, act s ((xs.drop o).take n))))
    {fuel o : Nat} {s : σ} (ho : F.Offset xs o) (hfuel : xs.length - o < fuel) :
    Loop.run turn fuel (o, s) = some (.ok ((F.split (xs.drop o)).foldl act s)) := by
  induction fuel generalizing o s with
  | zero => omega
  | succ fuel ih =>
      cases hs : F.size (xs.drop o) with
      | none =>
          rw [Loop.run_leave (hleave o s ho hs), split_of_none hs]
          rfl
      | some n =>
          have hpos := F.size_pos hs
          have hstride := F.le_stride n
          have hle := add_size_le hs
          -- One turn takes the first item off and leaves less input than fuel.
          rw [Loop.run_again (hagain o s n ho hs), split_drop_of_some hs, List.foldl_cons]
          exact ih (ho.next hs) (by omega)

/-! ## Length-prefixed formats -/

/-- Items that carry their own length in a header of fixed length, which the length counts. -/
def lengthPrefixed (header : Nat) (len : List α → Nat) (stride : Nat → Nat)
    (hpos : 0 < header) (hlen : ∀ xs, len (xs.take header) = len xs)
    (hstride : ∀ n, n ≤ stride n) : Framing α where
  size xs := if header ≤ xs.length ∧ header ≤ len xs ∧ len xs ≤ xs.length then some (len xs) else none
  stride := stride
  size_pos := by
    intro xs n h
    split at h <;> simp_all
    omega
  size_le := by
    intro xs n h
    split at h <;> simp_all
  size_local := by
    intro xs n h ys
    split at h
    · -- The header of the item is the same bytes in either input.
      rename_i hc
      obtain rfl := Option.some.inj h
      have htake : (xs.take (len xs) ++ ys).take header = xs.take header := by
        rw [List.take_append_of_le_length (by rw [List.length_take]; omega), List.take_take]
        congr 1
        omega
      have hsame : len (xs.take (len xs) ++ ys) = len xs := by
        rw [← hlen, htake, hlen]
      rw [hsame, if_pos]
      simp only [List.length_append, List.length_take]
      omega
    · cases h
  le_stride := hstride

theorem lengthPrefixed_size_eq_some {header : Nat} {len : List α → Nat} {stride : Nat → Nat}
    {hpos hlen hstride} {xs : List α} {n : Nat} :
    (lengthPrefixed header len stride hpos hlen hstride).size xs = some n ↔
      header ≤ xs.length ∧ header ≤ n ∧ n ≤ xs.length ∧ len xs = n := by
  simp only [lengthPrefixed, Option.ite_none_right_eq_some, Option.some.injEq]
  constructor
  · rintro ⟨⟨h₁, h₂, h₃⟩, rfl⟩
    exact ⟨h₁, h₂, h₃, rfl⟩
  · rintro ⟨h₁, h₂, h₃, rfl⟩
    exact ⟨⟨h₁, h₂, h₃⟩, rfl⟩

theorem lengthPrefixed_size_eq_none {header : Nat} {len : List α → Nat} {stride : Nat → Nat}
    {hpos hlen hstride} {xs : List α} :
    (lengthPrefixed header len stride hpos hlen hstride).size xs = none ↔
      ¬ (header ≤ xs.length ∧ header ≤ len xs ∧ len xs ≤ xs.length) := by
  rw [lengthPrefixed, ite_eq_right_iff]
  exact forall_congr' fun _ => iff_false_intro (Option.some_ne_none _)

end Framing
end Lib
end Netdiag
