import Netdiag.Netlink.Msg

/-!
# Walk — message loops where `size_t` has 64 bits

Both netlink parsers walk the messages of a buffer with the same `while` loop.  `Walk64` says
what such a loop does in one turn, in terms of the reference decoder; from it follow the result of
the loop and the exact condition under which it ends.

The step to the next message is `(nl_len + 3u) & ~3u` in 32-bit arithmetic, which is `0` for the
three largest lengths.  A message of such a length is received again and again.
-/

namespace Netdiag

open Lib

variable {σ : Type} {D : List UInt8} {turn : Nat × σ → Except Fault (Turn (Nat × σ) σ)}
  {receive : σ → List UInt8 → σ}

/-- The longest message whose padded length is a 32-bit number. -/
abbrev maxMsg : Nat := 2 ^ 32 - 4

/-- The loop leaves where no message stands, and otherwise receives the message and moves on by
its length, rounded up as the code does it. -/
structure Walk64 (D : List UInt8) (turn : Nat × σ → Except Fault (Turn (Nat × σ) σ))
    (receive : σ → List UInt8 → σ) : Prop where
  leaves : ∀ {off c}, msgFraming.Offset D off → msgFraming.size (D.drop off) = none →
    turn (off, c) = .ok (.leave c)
  receives : ∀ {off n c}, msgFraming.size (D.drop off) = some n →
    turn (off, c) = .ok (.again (off + (nlaAlign (nlmsgLen (D.drop off))).toNat,
      receive c ((D.drop off).take n)))

/-! ## The rounded length -/

theorem nlaAlign_of_short {xs : List UInt8} {n : Nat} (hsome : msgFraming.size xs = some n)
    (hshort : n ≤ maxMsg) : (nlaAlign (nlmsgLen xs)).toNat = roundUp4 n := by
  have hn := (msgFraming_size_eq_some.1 hsome).2.2.2
  rw [toNat_nlaAlign (hn ▸ hshort), hn]

/-- The 32-bit sum wraps, and what is left of it is cleared. -/
theorem nlaAlign_of_long {xs : List UInt8} {n : Nat} (hsome : msgFraming.size xs = some n)
    (hlong : maxMsg < n) : (nlaAlign (nlmsgLen xs)).toNat = 0 := by
  have hn := (msgFraming_size_eq_some.1 hsome).2.2.2
  have hlt : (nlmsgLen xs).toNat < 2 ^ 32 := UInt32.toNat_lt _
  have hsum : (nlmsgLen xs + 3).toNat = n + 3 - 2 ^ 32 := by
    rw [maxMsg] at hlong
    rw [UInt32.toNat_add, hn, show (3 : UInt32).toNat = 3 from rfl]
    omega
  rw [nlaAlign, toNat_and_not_3, hsum]
  omega

theorem take_mem_frames {off n : Nat} (hoff : msgFraming.Offset D off)
    (hsome : msgFraming.size (D.drop off) = some n) :
    (D.drop off).take n ∈ frames D ∧ ((D.drop off).take n).length = n := by
  have hmax := (msgFraming_size_eq_some.1 hsome).2.2.1
  exact ⟨hoff.mem_split hsome, List.length_take_of_le hmax⟩

namespace Walk64

/-! ## The result of the loop -/

/-- If every message has a length that can be rounded up, the loop receives them in order. -/
theorem run_eq (h : Walk64 D turn receive) (hshort : ∀ f ∈ frames D, f.length ≤ maxMsg)
    (c : σ) {fuel : Nat} (hfuel : D.length < fuel) :
    Loop.run turn fuel (0, c) = some (.ok ((frames D).foldl receive c)) := by
  have hagain : ∀ off c n, msgFraming.Offset D off → msgFraming.size (D.drop off) = some n →
      turn (off, c) = .ok (.again (off + msgFraming.stride n,
        receive c ((D.drop off).take n))) := by
    intro off c n hoff hsome
    rcases take_mem_frames hoff hsome with ⟨hmem, hlen⟩
    have hn : n ≤ maxMsg := hlen ▸ hshort _ hmem
    rw [h.receives hsome, nlaAlign_of_short hsome hn]
    rfl
  have hrun := Framing.run_eq_foldl_split D receive (fun off c hoff hnone => h.leaves hoff hnone)
    hagain .start (s := c) (by omega : D.length - 0 < fuel)
  rwa [List.drop_zero] at hrun

/-! ## Termination -/

/-- A message that is too long to be rounded up holds the loop where it stands. -/
theorem not_terminates_of_long (h : Walk64 D turn receive) {off n : Nat}
    (hsome : msgFraming.size (D.drop off) = some n) (hlong : maxMsg < n) {s : Nat × σ} {c : σ}
    (hreach : Loop.Reaches turn s (off, c)) : ¬ Loop.Terminates turn s := by
  -- The loop is caught in the states that stand at this offset.
  have hcaught : ∀ t : Nat × σ, t.1 = off → ∃ u, turn t = .ok (.again u) ∧ u.1 = off := by
    rintro ⟨_, c⟩ rfl
    refine ⟨_, h.receives hsome, ?_⟩
    rw [nlaAlign_of_long hsome hlong]
    rfl
  exact Loop.not_terminates_of_reaches_caught hcaught hreach rfl

/-- A loop that ends comes to stand at every offset of the reference decoder. -/
theorem reaches_offset (h : Walk64 D turn receive) {c₀ : σ}
    (hends : Loop.Terminates turn (0, c₀)) {off : Nat} (hoff : msgFraming.Offset D off) :
    ∃ c, Loop.Reaches turn (0, c₀) (off, c) := by
  induction hoff with
  | start => exact ⟨c₀, Loop.Reaches.refl _⟩
  | @next off n _ hsome ih =>
      rcases ih with ⟨c, hreach⟩
      -- A message that cannot be rounded up would hold the loop, which ends.
      by_cases hshort : n ≤ maxMsg
      · have hturn := h.receives (c := c) hsome
        rw [nlaAlign_of_short hsome hshort] at hturn
        exact ⟨_, hreach.tail hturn⟩
      · exact absurd hends (h.not_terminates_of_long hsome (Nat.lt_of_not_le hshort) hreach)

/-- The loop ends exactly if every message has a length that can be rounded up. -/
theorem terminates_iff (h : Walk64 D turn receive) (c : σ) :
    Loop.Terminates turn (0, c) ↔ ∀ f ∈ frames D, f.length ≤ maxMsg := by
  constructor
  · intro hends f hf
    rcases Framing.exists_offset_of_mem_split hf with ⟨off, n, hoff, hsome, rfl⟩
    rcases h.reaches_offset hends hoff with ⟨c', hreach⟩
    rw [(take_mem_frames hoff hsome).2]
    by_contra hlong
    exact h.not_terminates_of_long hsome (Nat.lt_of_not_le hlong) hreach hends
  · intro hshort
    exact ⟨_, _, h.run_eq hshort c (Nat.lt_succ_self _)⟩

/-! With a bound on the turns, as the parsers run it. -/

theorem exec_eq (h : Walk64 D turn receive) (hshort : ∀ f ∈ frames D, f.length ≤ maxMsg)
    (c : σ) :
    Loop.exec turn .stuck (D.length + 2) (0, c) = .ok ((frames D).foldl receive c) :=
  Loop.exec_of_run (h.run_eq hshort c (by omega))

/-- A message that is too long to be rounded up keeps the loop from returning. -/
theorem exec_of_long (h : Walk64 D turn receive) {f : List UInt8} (hf : f ∈ frames D)
    (hlong : maxMsg < f.length) (c : σ) :
    Loop.exec turn .stuck (D.length + 2) (0, c) = .error .stuck := by
  have hdiverges : ¬ Loop.Terminates turn (0, c) := by
    rw [h.terminates_iff c]
    intro hshort
    exact absurd (hshort f hf) (Nat.not_le_of_lt hlong)
  rw [Loop.exec]
  cases hrun : Loop.run turn (D.length + 2) (0, c) with
  | none => rfl
  | some r => exact absurd ⟨_, r, hrun⟩ hdiverges

/-- While every message can be rounded up, the loop stands at offsets of the reference decoder
only. -/
theorem offset_of_reaches (h : Walk64 D turn receive)
    (hshort : ∀ f ∈ frames D, f.length ≤ maxMsg) {c₀ : σ} {s : Nat × σ}
    (hreach : Loop.Reaches turn (0, c₀) s) : msgFraming.Offset D s.1 := by
  refine hreach.invariant (I := fun s => msgFraming.Offset D s.1) .start ?_
  rintro ⟨off, c⟩ ⟨off', c'⟩ hoff hturn
  cases hsome : msgFraming.size (D.drop off) with
  | none =>
      rw [h.leaves hoff hsome] at hturn
      cases hturn
  | some n =>
      rcases take_mem_frames hoff hsome with ⟨hmem, hlen⟩
      have hn : n ≤ maxMsg := hlen ▸ hshort _ hmem
      rw [h.receives hsome, nlaAlign_of_short hsome hn] at hturn
      cases hturn
      exact hoff.next hsome

/-- A turn that goes on has moved past the message it stood at. -/
theorem advances (h : Walk64 D turn receive) (hshort : ∀ f ∈ frames D, f.length ≤ maxMsg)
    {c₀ c c' : σ} {off off' : Nat} (hreach : Loop.Reaches turn (0, c₀) (off, c))
    (hturn : turn (off, c) = .ok (.again (off', c'))) :
    off + (nlmsgLen (D.drop off)).toNat ≤ off' := by
  have hoff := h.offset_of_reaches hshort hreach
  cases hsome : msgFraming.size (D.drop off) with
  | none =>
      rw [h.leaves hoff hsome] at hturn
      cases hturn
  | some n =>
      rcases take_mem_frames hoff hsome with ⟨hmem, hlen⟩
      have hn : n ≤ maxMsg := hlen ▸ hshort _ hmem
      have hround := le_roundUp4 n
      rw [h.receives hsome, nlaAlign_of_short hsome hn] at hturn
      cases hturn
      rw [(msgFraming_size_eq_some.1 hsome).2.2.2]
      omega

end Walk64
end Netdiag
