import Netdiag.Netlink.Walk32
import Netdiag.Nfct.Feed
import Netdiag.Nl80211.Feed

/-!
# Ilp32 — the message loops of both parsers where `size_t` has 32 bits

On the 32-bit targets the tests `off + nl_len > len` and `off + 16 <= len` of the loops wrap.
Whatever parses the attributes, as long as it returns, a loop stays within the buffer exactly if no
sum of its own wraps at the offsets where messages are looked for; with the parsers of the code, a
message of almost 4 GiB must have attributes that these can walk, too (`walks_confined_iff`).  A
header that claims almost 4 GiB is enough to break it.
-/

namespace Netdiag

open Lib

/-! ## Conntrack messages -/

namespace Nfct

/-- The call of `parse_ct_attrs` for the message at `off`. -/
def Hands (D : List UInt8) (off data len : Nat) : Prop :=
  ∃ n : UInt32, Accepts D off n ∧ ¬ n < 16 + 4 ∧
    data = Platform.ilp32.add (Platform.ilp32.add off 16) 4 ∧ len = (n - 16 - 4).toNat ∧
    Platform.ilp32.add data len ≤ Platform.ilp32.add off n.toNat

/-- The parser of the attributes returns for the message of `n` bytes at `off`. -/
def AttrsReturn (parseAttrs : Nat → Nat → Event → Except Fault Event) (D : List UInt8)
    (off n : Nat) : Prop :=
  20 ≤ n → ∃ ev, parseAttrs (off + 20) (n - 20)
    (eventOfHeader (nlmsgType (D.drop off)) (nlmsgFlags (D.drop off))) = .ok ev

/-- The loop over a parser of the attributes that returns at least for messages whose attributes
can be walked without a sum that wraps. -/
theorem netlinkWalk32With {parseAttrs : Nat → Nat → Event → Except Fault Event} {D : List UInt8}
    (hD : D.length < 2 ^ 32)
    (hshort : ∀ {off n}, msgFraming.size (D.drop off) = some n → n ≤ maxAttrs →
      AttrsReturn parseAttrs D off n) :
    Walk32 D (netlinkTurnWith .ilp32 D parseAttrs) (Hands D) 8 (AttrsReturn parseAttrs D) where
  header_bounds := by decide
  ends := by
    intro off c hfit hend
    rw [netlinkTurnWith, add_of_fit hfit, if_neg (Nat.not_le_of_lt hend)]
    rfl
  faults := by
    intro off c hlt hwrap hguard hshort
    rw [netlinkTurnWith, add_of_wrap hlt (by decide) hwrap, if_pos hguard]
    -- The flags are the last of the three fields that are read, and the read of an earlier one may
    -- fail before.
    by_cases h4 : D.length < off + 4
    · rcases rd32Le_of_lt h4 with ⟨e, he⟩
      rw [he]
      exact ⟨e, rfl⟩
    · rw [rd32Le_eq_nlmsgLen (Nat.le_of_not_lt h4)]
      rcases rd16Le_of_lt (i := off + 6) hshort with ⟨e, he⟩
      cases hread : rd16Le D (off + 4) with
      | error e' => exact ⟨e', rfl⟩
      | ok nlType =>
          rw [he]
          exact ⟨e, rfl⟩
  rejects := by
    intro off c hread hbad
    have hhere : At D off (D.drop off) := List.prefix_rfl
    have hlen : (D.drop off).length = D.length - off := List.length_drop
    rw [netlinkTurnWith]
    split_ifs with hguard
    · rw [hhere.rd32Le_zero (by omega), hhere.rd16Le (by omega), hhere.rd16Le (by omega)]
      exact if_pos hbad
    · rfl
  receives := by
    intro off n c hsome hret
    rw [netlinkTurnWith_msg _ (show D.length < Platform.ilp32.sizeMod from hD) hsome]
    exact again_of_returns hret
  fails := by
    intro off n c hsome hret
    rw [netlinkTurnWith_msg _ (show D.length < Platform.ilp32.sizeMod from hD) hsome]
    exact error_of_not_returns hret
  attrsReturn_of_short := hshort
  region := by
    rintro off data len ⟨n, hacc, hfull, rfl, rfl, _⟩
    refine ⟨n, hacc, ?_⟩
    intro hinside
    rw [UInt32.not_lt, UInt32.le_iff_toNat_le] at hfull
    have h20 : 20 ≤ n.toNat := hfull
    -- A message that is inside the buffer keeps the sums from wrapping.
    rw [toNat_attrLen h20, add_of_fit (a := off) (by omega), add_of_fit (by omega)]
    omega

/-- The loop of the code. -/
theorem netlinkWalk32 {D : List UInt8} (hD : D.length < 2 ^ 32) :
    Walk32 D (netlinkTurn .ilp32 D) (Hands D) 8 (AttrsReturn (parseCtAttrs .ilp32 D) D) :=
  netlinkWalk32With hD fun hsome hn _ => ⟨_, parseCtAttrs_msg hsome (attrs_fit hn) _⟩

end Nfct

/-! ## Station messages -/

namespace Nl80211

/-- The call of `parse_top_attrs` for the message at `off`. -/
def Hands (D : List UInt8) (off data len : Nat) : Prop :=
  ∃ n : UInt32, Accepts D off n ∧ ¬ n < 20 ∧ data = Platform.ilp32.add off 20 ∧
    len = if Platform.ilp32.add data (n.toNat - 20) > Platform.ilp32.add off n.toNat then
        if Platform.ilp32.add off n.toNat > data then Platform.ilp32.add off n.toNat - data else 0
      else n.toNat - 20

/-- The parser of the attributes returns for the message of `n` bytes at `off`. -/
def AttrsReturn (parseAttrs : Nat → Nat → Event → Except Fault Event) (off n : Nat) : Prop :=
  20 ≤ n → ∃ ev, parseAttrs (off + 20) (n - 20) stationInit = .ok ev

/-- The loop over a parser of the attributes that returns at least for messages whose attributes
can be walked without a sum that wraps. -/
theorem messagesWalk32With {parseAttrs : Nat → Nat → Event → Except Fault Event} {D : List UInt8}
    (hD : D.length < 2 ^ 32)
    (hshort : ∀ {off n}, msgFraming.size (D.drop off) = some n → n ≤ maxAttrs →
      AttrsReturn parseAttrs off n) :
    Walk32 D (messagesTurnWith .ilp32 D parseAttrs) (Hands D) 4 (AttrsReturn parseAttrs) where
  header_bounds := by decide
  ends := by
    intro off c hfit hend
    rw [messagesTurnWith, add_of_fit hfit, if_neg (Nat.not_le_of_lt hend)]
    rfl
  faults := by
    intro off c hlt hwrap hguard hshort
    rcases rd32Le_of_lt hshort with ⟨e, he⟩
    rw [messagesTurnWith, add_of_wrap hlt (by decide) hwrap, if_pos hguard, he]
    exact ⟨e, rfl⟩
  rejects := by
    intro off c hread hbad
    rw [messagesTurnWith]
    split_ifs with hguard
    · rw [rd32Le_eq_nlmsgLen hread]
      exact if_pos hbad
    · rfl
  receives := by
    intro off n c hsome hret
    rw [messagesTurnWith_msg _ (show D.length < Platform.ilp32.sizeMod from hD) hsome]
    exact again_of_returns hret
  fails := by
    intro off n c hsome hret
    rw [messagesTurnWith_msg _ (show D.length < Platform.ilp32.sizeMod from hD) hsome]
    exact error_of_not_returns hret
  attrsReturn_of_short := hshort
  region := by
    rintro off data len ⟨n, hacc, hfull, rfl, rfl⟩
    refine ⟨n, hacc, ?_⟩
    intro hinside
    rw [UInt32.not_lt, UInt32.le_iff_toNat_le] at hfull
    have h20 : 20 ≤ n.toNat := hfull
    rw [add_of_fit (a := off) (b := 20) (by omega), add_of_fit (a := off) (b := n.toNat) (by omega),
      add_of_fit (by omega), if_neg (by omega)]
    omega

/-- The loop of the code. -/
theorem messagesWalk32 {D : List UInt8} (hD : D.length < 2 ^ 32) :
    Walk32 D (messagesTurn .ilp32 D) (Hands D) 4 (AttrsReturn (parseTopAttrs .ilp32 D)) :=
  messagesWalk32With hD fun hsome hn _ => ⟨_, parseTopAttrs_msg hsome (attrs_fit hn)⟩

end Nl80211

/-! ## Both loops -/

/-- Complete messages claim no more bytes than there are. -/
theorem claims_of_padded {ms : List (List UInt8)} {D : List UInt8} (hD : msgFraming.Padded ms D)
    {off : Nat} (hoff : msgFraming.Offset D off) (hguard : off + 16 ≤ D.length) :
    off + (nlmsgLen (D.drop off)).toNat ≤ D.length := by
  rcases hoff.padded_drop hD with ⟨ns, hns⟩
  have hdrop : (D.drop off).length = D.length - off := List.length_drop
  rcases hns.nil_or_size with hnil | ⟨n, hsome⟩
  · -- Behind the last message there is no room for a header.
    rw [hnil, List.length_nil] at hdrop
    omega
  · have hend := Framing.add_size_le hsome
    rw [(msgFraming_size_eq_some.1 hsome).2.2.2]
    omega

end Netdiag
