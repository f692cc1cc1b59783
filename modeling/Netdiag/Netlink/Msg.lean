import Netdiag.Netlink.Attr

/-!
# Msg — netlink messages in a buffer

A buffer holds messages one after the other.  Each starts with a 16-byte `nlmsghdr` whose first
four bytes are the length of the message in little-endian order, header included, and the next
one starts at the next multiple of four.  `frames` is the reference decoder for a buffer.
-/

namespace Netdiag

open Lib

/-! ## The header -/

def nlmsgLen (f : List UInt8) : UInt32 := le32At f 0

def nlmsgType (f : List UInt8) : UInt16 := le16At f 4

def nlmsgFlags (f : List UInt8) : UInt16 := le16At f 6

/-- The attributes of a message start after the `nlmsghdr` and the four bytes of the header of
its family. -/
def msgAttrs (f : List UInt8) : List Attr := attrs (f.drop 20)

/-! ## The reference decoder -/

def msgFraming : Framing UInt8 :=
  .lengthPrefixed 16 (fun xs => (nlmsgLen xs).toNat) roundUp4 (by decide)
    (fun xs => by rw [nlmsgLen, le32At_take (by omega), nlmsgLen]) le_roundUp4

/-- The complete messages at the front of the buffer, up to the first bad header. -/
def frames (D : List UInt8) : List (List UInt8) :=
  msgFraming.split D

/-- The messages that are long enough for both headers. -/
def fullFrames (D : List UInt8) : List (List UInt8) :=
  (frames D).filter (20 ≤ ·.length)

@[simp] theorem msgFraming_stride (n : Nat) : msgFraming.stride n = roundUp4 n := rfl

theorem msgFraming_size_eq_some {xs : List UInt8} {n : Nat} :
    msgFraming.size xs = some n ↔
      16 ≤ xs.length ∧ 16 ≤ n ∧ n ≤ xs.length ∧ (nlmsgLen xs).toNat = n :=
  Framing.lengthPrefixed_size_eq_some

theorem msgFraming_size_eq_none {xs : List UInt8} :
    msgFraming.size xs = none ↔
      ¬ (16 ≤ xs.length ∧ 16 ≤ (nlmsgLen xs).toNat ∧ (nlmsgLen xs).toNat ≤ xs.length) :=
  Framing.lengthPrefixed_size_eq_none

/-- Where the bytes of a magic word stand, the length is the word in the other byte order. -/
theorem nlmsgLen_of_be32At {D : List UInt8} {b₀ b₁ b₂ b₃ : UInt8}
    (h : be32At D 0 = be32 b₀ b₁ b₂ b₃) : nlmsgLen D = le32 b₀ b₁ b₂ b₃ := by
  rcases be32_inj h with ⟨h₀, h₁, h₂, h₃⟩
  rw [nlmsgLen, le32At, h₀, h₁, h₂, h₃]

/-- The reference decoder as a recursion on the rest of the buffer. -/
theorem frames_eq (D : List UInt8) :
    frames D =
      if 16 ≤ D.length ∧ 16 ≤ (nlmsgLen D).toNat ∧ (nlmsgLen D).toNat ≤ D.length then
        D.take (nlmsgLen D).toNat :: frames (D.drop (roundUp4 (nlmsgLen D).toNat))
      else [] := by
  split_ifs with hgood
  · exact Framing.split_of_some
      (msgFraming_size_eq_some.2 ⟨hgood.1, hgood.2.1, hgood.2.2, rfl⟩)
  · exact Framing.split_of_none (msgFraming_size_eq_none.2 hgood)

/-! ## The test that the parsers make on a header -/

/-- The test fails where no message stands, unless its sum wraps. -/
theorem bad_header_of_none {p : Platform} {D : List UInt8} (hD : D.length + 2 ^ 32 ≤ p.sizeMod)
    {off : Nat} (hguard : off + 16 ≤ D.length) (hnone : msgFraming.size (D.drop off) = none) :
    nlmsgLen (D.drop off) < 16 ∨ D.length < p.add off (nlmsgLen (D.drop off)).toNat := by
  have hlen : (D.drop off).length = D.length - off := List.length_drop
  have hsmall : (nlmsgLen (D.drop off)).toNat < 2 ^ 32 := UInt32.toNat_lt _
  by_contra hgood
  rw [not_or, UInt32.not_lt, UInt32.le_iff_toNat_le, Platform.add_of_lt (by omega)] at hgood
  have h16 : (16 : UInt32).toNat = 16 := rfl
  exact msgFraming_size_eq_none.1 hnone ⟨by omega, by omega, by omega⟩

theorem good_header_of_some {p : Platform} {D : List UInt8} (hD : D.length < p.sizeMod)
    {off n : Nat} (hsome : msgFraming.size (D.drop off) = some n) :
    ¬ (nlmsgLen (D.drop off) < 16 ∨ D.length < p.add off (nlmsgLen (D.drop off)).toNat) := by
  rcases msgFraming_size_eq_some.1 hsome with ⟨_, hmin, _, hn⟩
  have hend := Framing.add_size_le hsome
  rw [not_or, UInt32.not_lt, UInt32.le_iff_toNat_le, hn, Platform.add_of_lt (by omega)]
  exact ⟨hmin, by omega⟩

/-! ## The header of a message is the header at its offset -/

theorem nlmsgLen_take {xs : List UInt8} {n : Nat} (h : 16 ≤ n) :
    nlmsgLen (xs.take n) = nlmsgLen xs :=
  le32At_take (by omega)

theorem nlmsgType_take {xs : List UInt8} {n : Nat} (h : 16 ≤ n) :
    nlmsgType (xs.take n) = nlmsgType xs :=
  le16At_take (by omega)

theorem nlmsgFlags_take {xs : List UInt8} {n : Nat} (h : 16 ≤ n) :
    nlmsgFlags (xs.take n) = nlmsgFlags xs :=
  le16At_take (by omega)

/-- The bytes after both headers of a message, where the attribute parsers are sent. -/
theorem at_msgBody {D : List UInt8} {off n : Nat} (hsome : msgFraming.size (D.drop off) = some n) :
    At D (off + 20) (((D.drop off).take n).drop 20) ∧
      (((D.drop off).take n).drop 20).length = n - 20 := by
  have hmax := (msgFraming_size_eq_some.1 hsome).2.2.1
  have hhere : At D off (D.drop off) := List.prefix_rfl
  refine ⟨(hhere.take n).drop 20, ?_⟩
  rw [List.length_drop, List.length_take_of_le hmax]

/-- A walk over the messages never stands further than their padding past the end. -/
theorem msgOffset_le {D : List UInt8} {off : Nat} (h : msgFraming.Offset D off) :
    off ≤ roundUp4 D.length := by
  cases h with
  | start => exact Nat.zero_le _
  | @next o n hprev hs =>
      have hle := Framing.add_size_le hs
      -- Messages start at multiples of 4, so the end of the last one rounds up to at most this.
      have hmult : ∀ k, msgFraming.Offset D k → k % 4 = 0 := by
        intro k hk
        induction hk with
        | start => rfl
        | next _ _ ih =>
            rw [msgFraming_stride, roundUp4]
            omega
      have hfour := hmult o hprev
      rw [msgFraming_stride, roundUp4, roundUp4]
      omega

theorem length_le_of_mem_frames {D f : List UInt8} (h : f ∈ frames D) :
    f.length ≤ D.length := by
  rcases Framing.exists_offset_of_mem_split h with ⟨o, n, _, _, rfl⟩
  rw [List.length_take, List.length_drop]
  omega

/-- A `NEW` message of conntrack without attributes. -/
def emptyMessage : List UInt8 :=
  [20, 0, 0, 0, 0, 1, 0, 0, 0, 0, 0, 0, 0, 0, 0, 0, 2, 0, 0, 0]

example : frames (emptyMessage ++ emptyMessage ++ [20, 0, 0, 0]) = [emptyMessage, emptyMessage] :=
  by decide

/-- Messages one after another, each padded to the next multiple of 4. -/
def padMsgs (ms : List (List UInt8)) : List UInt8 :=
  ms.flatMap fun m => m ++ List.replicate (roundUp4 m.length - m.length) 0

theorem padded_padMsgs {ms : List (List UInt8)} (h : ∀ m ∈ ms, msgFraming.Item m) :
    msgFraming.Padded ms (padMsgs ms) := by
  induction ms with
  | nil => exact .nil
  | cons m ms ih =>
      have hround := le_roundUp4 m.length
      have hpad : m.length + (List.replicate (roundUp4 m.length - m.length) (0 : UInt8)).length =
          msgFraming.stride m.length := by
        rw [List.length_replicate, msgFraming_stride]
        omega
      rw [padMsgs, List.flatMap_cons, List.append_assoc]
      exact .cons (h m List.mem_cons_self) hpad (ih fun n hn => h n (List.mem_cons_of_mem m hn))

/-- A header alone, a message of 30 bytes with a MAC attribute, and a `DELETE` message with an
id. -/
def mixedMessages : List (List UInt8) :=
  [[16, 0, 0, 0, 0, 1, 0, 0, 0, 0, 0, 0, 0, 0, 0, 0],
    [30, 0, 0, 0, 0, 1, 0, 0, 0, 0, 0, 0, 0, 0, 0, 0, 2, 0, 0, 0,
      10, 0, 6, 0, 0xaa, 0xbb, 0xcc, 0xdd, 0xee, 0xff],
    [28, 0, 0, 0, 2, 1, 0, 0, 0, 0, 0, 0, 0, 0, 0, 0, 2, 0, 0, 0, 8, 0, 12, 0, 0, 0, 0, 7]]

theorem padded_mixedMessages : msgFraming.Padded mixedMessages (padMsgs mixedMessages) :=
  padded_padMsgs (by decide)

end Netdiag
