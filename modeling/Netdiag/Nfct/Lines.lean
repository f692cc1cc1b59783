import Netdiag.Lib.Words
import Netdiag.Nfct.Event
import Netdiag.Print

/-!
# Lines — conntrack events as text

`nfct_event_to_string` writes one line for each event: family, type, protocol, ports and identifier,
for IPv4 also the two addresses, and for IPv6 whether the connection is gone.  The lines of two
events are the same exactly if the events agree in what is shown (`line_eq_iff_shown`).  For IPv4
that is the forensics tuple.
-/

namespace Netdiag
namespace Nfct

open Lib

/-! ## The printer -/

/-- `t`, the name of the type. -/
def typeText : EventType → String
  | .eventNew => "NEW"
  | .eventUpdate => "UPDATE"
  | .eventDestroy => "DESTROY"
  | .eventError => "ERROR"
  | .eventPartial => "PARTIAL"
  | .eventNone => "NONE"

def lineFormat6 : List Piece :=
  [.lit "nfct ".toList, .arg, .lit " proto=".toList, .arg, .lit " v6 lan_port=".toList, .arg,
    .lit " wan_port=".toList, .arg, .lit " id=".toList, .arg, .arg]

def lineArgs6 (ev : Event) : List (List Char) :=
  [(typeText ev.type).toList, decimal ev.protocol.toNat, decimal ev.lanSrcPort.toNat,
    decimal ev.wanSrcPort.toNat, decimal ev.id.toNat,
    (if ev.isDestroy then " DESTROY" else "").toList]

def lineFormat4 : List Piece :=
  [.lit "nfct ".toList, .arg, .lit " proto=".toList, .arg, .lit " lan=".toList, .arg,
    .lit ".".toList, .arg, .lit ".".toList, .arg, .lit ".".toList, .arg, .lit ":".toList, .arg,
    .lit " wan=".toList, .arg, .lit ".".toList, .arg, .lit ".".toList, .arg, .lit ".".toList, .arg,
    .lit ":".toList, .arg, .lit " id=".toList, .arg]

def lineArgs4 (ev : Event) : List (List Char) :=
  [(typeText ev.type).toList, decimal ev.protocol.toNat,
    decimal ((ev.lanSrcIp >>> 24) &&& 0xFF).toNat, decimal ((ev.lanSrcIp >>> 16) &&& 0xFF).toNat,
    decimal ((ev.lanSrcIp >>> 8) &&& 0xFF).toNat, decimal (ev.lanSrcIp &&& 0xFF).toNat,
    decimal ev.lanSrcPort.toNat,
    decimal ((ev.wanSrcIp >>> 24) &&& 0xFF).toNat, decimal ((ev.wanSrcIp >>> 16) &&& 0xFF).toNat,
    decimal ((ev.wanSrcIp >>> 8) &&& 0xFF).toNat, decimal (ev.wanSrcIp &&& 0xFF).toNat,
    decimal ev.wanSrcPort.toNat, decimal ev.id.toNat]

def line (ev : Event) : List Char :=
  if ev.isIpv6 then fill lineFormat6 (lineArgs6 ev) else fill lineFormat4 (lineArgs4 ev)

/-- `nfct_event_to_string`: the array `buf` as it is afterwards, `none` for `NULL`. -/
def eventToString (ev : Option Event) (buf : Option (List Char)) (max : Nat) :
    Except Fault (Option (List Char)) :=
  match ev, buf with
  | some ev, some buf =>
      if max = 0 then return none
      else do
        let buf ← snprintf buf max (line ev)
        return some buf
  | _, _ => return none

/-! ## Reading a line -/

theorem typeText_inj {s t : EventType} (h : typeText s = typeText t) : s = t := by
  revert h
  cases s <;> cases t <;> decide

theorem not_mem_typeText {ch : Char} (t : EventType)
    (h : ch ∉ "NEWUPDATEDESTROYERRORPARTIALNONE".toList) : ch ∉ (typeText t).toList := by
  have hsub : (typeText t).toList ⊆ "NEWUPDATEDESTROYERRORPARTIALNONE".toList := by
    cases t <;> decide
  exact fun hmem => h (hsub hmem)

theorem delimits_line4 (ev : Event) : Delimits lineFormat4 (lineArgs4 ev) := by
  have hspace : ∀ n, ' ' ∉ decimal n := fun n => not_mem_decimal (by decide)
  have hdot : ∀ n, '.' ∉ decimal n := fun n => not_mem_decimal (by decide)
  have hcolon : ∀ n, ':' ∉ decimal n := fun n => not_mem_decimal (by decide)
  exact ⟨not_mem_typeText ev.type (by decide), hspace _, hdot _, hdot _, hdot _, hcolon _,
    hspace _, hdot _, hdot _, hdot _, hcolon _, hspace _, trivial⟩

/-- The four numbers of an address. -/
theorem ip_inj {a b : UInt32}
    (h₀ : decimal ((a >>> 24) &&& 0xFF).toNat = decimal ((b >>> 24) &&& 0xFF).toNat)
    (h₁ : decimal ((a >>> 16) &&& 0xFF).toNat = decimal ((b >>> 16) &&& 0xFF).toNat)
    (h₂ : decimal ((a >>> 8) &&& 0xFF).toNat = decimal ((b >>> 8) &&& 0xFF).toNat)
    (h₃ : decimal (a &&& 0xFF).toNat = decimal (b &&& 0xFF).toNat) : a = b := by
  rw [← be32_wr32Be a, ← be32_wr32Be b, UInt32.toNat_inj.1 (decimal_inj h₀),
    UInt32.toNat_inj.1 (decimal_inj h₁), UInt32.toNat_inj.1 (decimal_inj h₂),
    UInt32.toNat_inj.1 (decimal_inj h₃)]

/-- Behind the identifier there is nothing, or a text that no number is part of. -/
theorem decimal_append_inj {n k : Nat} {d e : Bool}
    (h : decimal n ++ (if d then " DESTROY" else "").toList =
      decimal k ++ (if e then " DESTROY" else "").toList) : n = k ∧ d = e := by
  have hspace : ∀ n, ' ' ∉ decimal n := fun n => not_mem_decimal (by decide)
  have hlong : ∀ n, ' ' ∈ decimal n ++ " DESTROY".toList :=
    fun n => List.mem_append_right _ (by decide)
  cases d <;> cases e
  · exact ⟨decimal_inj (List.append_cancel_right h), rfl⟩
  · have hsame : decimal n = decimal k ++ " DESTROY".toList := (List.append_nil _).symm.trans h
    exact absurd (hsame ▸ hlong k) (hspace n)
  · have hsame : decimal n ++ " DESTROY".toList = decimal k := h.trans (List.append_nil _)
    exact absurd (hsame ▸ hlong n) (hspace k)
  · exact ⟨decimal_inj (List.append_cancel_right h), rfl⟩

/-- The format for IPv6 with all that is behind its last literal in one argument. -/
def joinedFormat6 : List Piece :=
  [.lit "nfct ".toList, .arg, .lit " proto=".toList, .arg, .lit " v6 lan_port=".toList, .arg,
    .lit " wan_port=".toList, .arg, .lit " id=".toList, .arg]

def joinedArgs6 (ev : Event) : List (List Char) :=
  [(typeText ev.type).toList, decimal ev.protocol.toNat, decimal ev.lanSrcPort.toNat,
    decimal ev.wanSrcPort.toNat,
    decimal ev.id.toNat ++ (if ev.isDestroy then " DESTROY" else "").toList]

theorem line_of_ipv6 {ev : Event} (h : ev.isIpv6 = true) :
    line ev = fill joinedFormat6 (joinedArgs6 ev) := by
  rw [line, if_pos h]
  simp only [lineFormat6, lineArgs6, joinedFormat6, joinedArgs6, fill, List.append_nil]

theorem delimits_line6 (ev : Event) : Delimits joinedFormat6 (joinedArgs6 ev) := by
  have hspace : ∀ n, ' ' ∉ decimal n := fun n => not_mem_decimal (by decide)
  exact ⟨not_mem_typeText ev.type (by decide), hspace _, hspace _, hspace _, trivial⟩

theorem line_of_ipv4 {ev : Event} (h : ev.isIpv6 = false) :
    line ev = fill lineFormat4 (lineArgs4 ev) := by
  rw [line, h]
  rfl

/-- The family shows in the first character behind the protocol. -/
theorem exists_line_eq (ev : Event) :
    ∃ tail, line ev = "nfct ".toList ++ ((typeText ev.type).toList ++ ' ' :: ("proto=".toList ++
      (decimal ev.protocol.toNat ++ ' ' :: (if ev.isIpv6 then 'v' else 'l') :: tail))) := by
  cases h : ev.isIpv6 with
  | true =>
      rw [line_of_ipv6 h]
      exact ⟨_, rfl⟩
  | false =>
      rw [line_of_ipv4 h]
      exact ⟨_, rfl⟩

theorem isIpv6_eq_of_line {ev ev' : Event} (h : line ev = line ev') : ev.isIpv6 = ev'.isIpv6 := by
  rcases exists_line_eq ev with ⟨tail, hline⟩
  rcases exists_line_eq ev' with ⟨tail', hline'⟩
  have hspace : ∀ n, ' ' ∉ decimal n := fun n => not_mem_decimal (by decide)
  rw [hline, hline'] at h
  -- The type and the protocol come first, and the character behind these tells the family.
  have htype := append_cons_inj (not_mem_typeText ev.type (by decide))
    (not_mem_typeText ev'.type (by decide)) (List.append_cancel_left h)
  have hprotocol := append_cons_inj (hspace _) (hspace _) (List.append_cancel_left htype.2)
  have hfirst := (List.cons.inj hprotocol.2).1
  cases hsix : ev.isIpv6 <;> cases hsix' : ev'.isIpv6
  · rfl
  · rw [hsix, hsix'] at hfirst
    exact absurd hfirst (by decide)
  · rw [hsix, hsix'] at hfirst
    exact absurd hfirst (by decide)
  · rfl

/-- Two events agree in all that their lines show. -/
structure SameShown (ev ev' : Event) : Prop where
  isIpv6 : ev.isIpv6 = ev'.isIpv6
  type : ev.type = ev'.type
  protocol : ev.protocol = ev'.protocol
  lanSrcPort : ev.lanSrcPort = ev'.lanSrcPort
  wanSrcPort : ev.wanSrcPort = ev'.wanSrcPort
  id : ev.id = ev'.id
  isDestroy : ev.isIpv6 = true → ev.isDestroy = ev'.isDestroy
  lanSrcIp : ev.isIpv6 = false → ev.lanSrcIp = ev'.lanSrcIp
  wanSrcIp : ev.isIpv6 = false → ev.wanSrcIp = ev'.wanSrcIp

theorem sameShown_of_line6 {ev ev' : Event} (hsix : ev.isIpv6 = true) (hsix' : ev'.isIpv6 = true)
    (h : line ev = line ev') : SameShown ev ev' := by
  rw [line_of_ipv6 hsix, line_of_ipv6 hsix'] at h
  -- Nothing delimits the identifier from the word behind it: both are one argument here.
  have hargs := fill_inj (delimits_line6 ev) (delimits_line6 ev') h
  simp only [joinedArgs6, List.cons.injEq, and_true] at hargs
  rcases hargs with ⟨htype, hprotocol, hlan, hwan, hid⟩
  exact
    { isIpv6 := hsix.trans hsix'.symm
      type := typeText_inj (String.toList_inj.1 htype)
      protocol := UInt8.toNat_inj.1 (decimal_inj hprotocol)
      lanSrcPort := UInt16.toNat_inj.1 (decimal_inj hlan)
      wanSrcPort := UInt16.toNat_inj.1 (decimal_inj hwan)
      id := UInt32.toNat_inj.1 (decimal_append_inj hid).1
      isDestroy := fun _ => (decimal_append_inj hid).2
      lanSrcIp := fun hfour => Bool.noConfusion (hsix.symm.trans hfour)
      wanSrcIp := fun hfour => Bool.noConfusion (hsix.symm.trans hfour) }

theorem sameShown_of_line4 {ev ev' : Event} (hfour : ev.isIpv6 = false)
    (hfour' : ev'.isIpv6 = false) (h : line ev = line ev') : SameShown ev ev' := by
  rw [line_of_ipv4 hfour, line_of_ipv4 hfour'] at h
  have hargs := fill_inj (delimits_line4 ev) (delimits_line4 ev') h
  simp only [lineArgs4, List.cons.injEq, and_true] at hargs
  rcases hargs with ⟨htype, hprotocol, hlan₀, hlan₁, hlan₂, hlan₃, hlan, hwan₀, hwan₁, hwan₂,
    hwan₃, hwan, hid⟩
  exact
    { isIpv6 := hfour.trans hfour'.symm
      type := typeText_inj (String.toList_inj.1 htype)
      protocol := UInt8.toNat_inj.1 (decimal_inj hprotocol)
      lanSrcPort := UInt16.toNat_inj.1 (decimal_inj hlan)
      wanSrcPort := UInt16.toNat_inj.1 (decimal_inj hwan)
      id := UInt32.toNat_inj.1 (decimal_inj hid)
      isDestroy := fun hsix => Bool.noConfusion (hfour.symm.trans hsix)
      lanSrcIp := fun _ => ip_inj hlan₀ hlan₁ hlan₂ hlan₃
      wanSrcIp := fun _ => ip_inj hwan₀ hwan₁ hwan₂ hwan₃ }

theorem line_eq_iff {ev ev' : Event} : line ev = line ev' ↔ SameShown ev ev' := by
  constructor
  · intro h
    have hfamily := isIpv6_eq_of_line h
    cases hsix : ev.isIpv6 with
    | true => exact sameShown_of_line6 hsix (hfamily.symm.trans hsix) h
    | false => exact sameShown_of_line4 hsix (hfamily.symm.trans hsix) h
  · intro h
    cases hsix : ev.isIpv6 with
    | true =>
        rw [line_of_ipv6 hsix, line_of_ipv6 (h.isIpv6.symm.trans hsix), joinedArgs6,
          joinedArgs6, h.type, h.protocol, h.lanSrcPort, h.wanSrcPort, h.id, h.isDestroy hsix]
    | false =>
        rw [line_of_ipv4 hsix, line_of_ipv4 (h.isIpv6.symm.trans hsix), lineArgs4, lineArgs4,
          h.type, h.protocol, h.lanSrcPort, h.wanSrcPort, h.id, h.lanSrcIp hsix, h.wanSrcIp hsix]

/-- What the lines of IPv4 events show is the type, the identifier and the forensics tuple. -/
theorem sameShown_iff_tuple {ev ev' : Event} (h : ev.isIpv6 = false) (h' : ev'.isIpv6 = false) :
    SameShown ev ev' ↔ ev.type = ev'.type ∧ ev.id = ev'.id ∧
      ∀ out, (eventForensicsTuple (some ev) out).2 = (eventForensicsTuple (some ev') out).2 := by
  simp only [eventForensicsTuple, h, h', Bool.false_eq_true, if_false]
  constructor
  · intro hsame
    refine ⟨hsame.type, hsame.id, fun out => ?_⟩
    rw [hsame.protocol, hsame.lanSrcPort, hsame.wanSrcPort, hsame.lanSrcIp h, hsame.wanSrcIp h]
  · rintro ⟨htype, hid, htuple⟩
    have hall := htuple ⟨some 0, some 0, some 0, some 0, some 0⟩
    simp only [store, Option.map_some, TupleOut.mk.injEq, Option.some.injEq] at hall
    rcases hall with ⟨hlanIp, hlan, hwanIp, hwan, hprotocol⟩
    exact ⟨h.trans h'.symm, htype, hprotocol, hlan, hwan, hid,
      fun hsix => Bool.noConfusion (h.symm.trans hsix), fun _ => hlanIp, fun _ => hwanIp⟩

/-! ## Room for a line -/

theorem length_decimal_byte (x : UInt32) : (decimal (x &&& 0xFF).toNat).length ≤ 3 := by
  refine length_decimal_le (by decide) ?_
  rw [UInt32.toNat_and]
  exact (Nat.and_lt_two_pow _ (by decide : (0xFF : UInt32).toNat < 2 ^ 8)).trans (by decide)

theorem length_line_le (ev : Event) : (line ev).length ≤ 88 := by
  have htype : (typeText ev.type).toList.length ≤ 7 := by
    cases ev.type <;> decide
  have hprotocol : (decimal ev.protocol.toNat).length ≤ 3 :=
    length_decimal_le (by decide) (ev.protocol.toNat_lt.trans (by decide))
  have hlan : (decimal ev.lanSrcPort.toNat).length ≤ 5 :=
    length_decimal_le (by decide) (ev.lanSrcPort.toNat_lt.trans (by decide))
  have hwan : (decimal ev.wanSrcPort.toNat).length ≤ 5 :=
    length_decimal_le (by decide) (ev.wanSrcPort.toNat_lt.trans (by decide))
  have hid : (decimal ev.id.toNat).length ≤ 10 :=
    length_decimal_le (by decide) (ev.id.toNat_lt.trans (by decide))
  rw [line]
  -- The longest line is as long as the literals of its format and the longest arguments.
  split_ifs with hsix
  · have hdestroy : (if ev.isDestroy then " DESTROY" else "").toList.length ≤ 8 := by
      cases ev.isDestroy <;> decide
    have hall := length_fill_le lineFormat6 (lineArgs6 ev)
    have hliterals : (lineFormat6.map fun p => p.text.length).sum = 39 := by decide
    simp only [lineArgs6, List.map_cons, List.map_nil, List.sum_cons, List.sum_nil] at hall ⊢
    omega
  · have hbyte := length_decimal_byte
    have hall := length_fill_le lineFormat4 (lineArgs4 ev)
    have hliterals : (lineFormat4.map fun p => p.text.length).sum = 34 := by decide
    have hlanIp : ∀ k, (decimal ((ev.lanSrcIp >>> k) &&& 0xFF).toNat).length ≤ 3 :=
      fun k => hbyte _
    have hwanIp : ∀ k, (decimal ((ev.wanSrcIp >>> k) &&& 0xFF).toNat).length ≤ 3 :=
      fun k => hbyte _
    simp only [lineArgs4, List.map_cons, List.map_nil, List.sum_cons, List.sum_nil] at hall ⊢
    have hlan₀ := hlanIp 24
    have hlan₁ := hlanIp 16
    have hlan₂ := hlanIp 8
    have hlan₃ := hbyte ev.lanSrcIp
    have hwan₀ := hwanIp 24
    have hwan₁ := hwanIp 16
    have hwan₂ := hwanIp 8
    have hwan₃ := hbyte ev.wanSrcIp
    omega

theorem nul_not_mem_line (ev : Event) : nul ∉ line ev := by
  have htype : nul ∉ (typeText ev.type).toList := not_mem_typeText ev.type (by decide)
  have hnumber : ∀ n, nul ∉ decimal n := fun n => not_mem_decimal (by decide)
  rw [line]
  split_ifs
  · have hdestroy : nul ∉ (if ev.isDestroy then " DESTROY" else "").toList := by
      cases ev.isDestroy <;> decide
    refine not_mem_fill (by decide) ?_
    simp only [lineArgs6, List.forall_mem_cons, htype, hnumber, hdestroy, not_false_eq_true,
      List.not_mem_nil, false_implies, implies_true, and_self]
  · refine not_mem_fill (by decide) ?_
    simp only [lineArgs4, List.forall_mem_cons, htype, hnumber, not_false_eq_true,
      List.not_mem_nil, false_implies, implies_true, and_self]

theorem eventToString_of_le (ev : Event) {buf : List Char} {max : Nat} (hpos : 0 < max)
    (hmax : max ≤ buf.length) :
    ∃ out, eventToString (some ev) (some buf) max = .ok (some out) ∧
      Printed buf max (line ev) out := by
  rcases snprintf_of_le hpos hmax (nul_not_mem_line ev) with ⟨out, hout, hprinted⟩
  refine ⟨out, ?_, hprinted⟩
  rw [eventToString, if_neg hpos.ne', hout]
  rfl

/-- In arrays of 89 characters or more no line is cut off, and two lines are the same exactly if
their events agree in what is shown: for IPv4 in type, identifier and forensics tuple. -/
theorem lines_of_events (ev ev' : Event) {buf buf' : List Char} {max max' : Nat} (hmin : 89 ≤ max)
    (hmax : max ≤ buf.length) (hmin' : 89 ≤ max') (hmax' : max' ≤ buf'.length) :
    ∃ out out', eventToString (some ev) (some buf) max = .ok (some out) ∧
      eventToString (some ev') (some buf') max' = .ok (some out') ∧
      (textOf out = textOf out' ↔ SameShown ev ev') ∧
      (ev.isIpv6 = false → ev'.isIpv6 = false →
        (textOf out = textOf out' ↔ ev.type = ev'.type ∧ ev.id = ev'.id ∧
          ∀ o, (eventForensicsTuple (some ev) o).2 = (eventForensicsTuple (some ev') o).2)) := by
  have hlen := length_line_le ev
  have hlen' := length_line_le ev'
  rcases eventToString_of_le ev (by omega) hmax with ⟨out, hout, hprinted⟩
  rcases eventToString_of_le ev' (by omega) hmax' with ⟨out', hout', hprinted'⟩
  have hshown : textOf out = textOf out' ↔ SameShown ev ev' := by
    rw [hprinted.text_of_lt (by omega), hprinted'.text_of_lt (by omega), line_eq_iff]
  exact ⟨out, out', hout, hout', hshown, fun h h' => hshown.trans (sameShown_iff_tuple h h')⟩

/-- A connection from this port, with this mark. -/
def markedEvent (isIpv6 : Bool) (port : UInt16) (mark : UInt64) : Event :=
  { type := .eventUpdate, protocol := 6, lanSrcIp := 0xC0A80132, lanSrcPort := port,
    wanSrcIp := 0xCB007109, wanSrcPort := 443, mark := mark, id := 7, hasLan := true,
    hasId := true, isIpv6 := isIpv6, isDestroy := isIpv6 }

/-- The mark is not shown, the port is. -/
theorem lines_of_events_markedEvent :
    (∃ out out',
      eventToString (some (markedEvent false 80 1)) (some (List.replicate 89 nul)) 89 =
        .ok (some out) ∧
      eventToString (some (markedEvent false 80 2)) (some (List.replicate 128 nul)) 128 =
        .ok (some out') ∧ textOf out = textOf out') ∧
    ∃ out out',
      eventToString (some (markedEvent true 80 1)) (some (List.replicate 89 nul)) 89 =
        .ok (some out) ∧
      eventToString (some (markedEvent true 81 1)) (some (List.replicate 128 nul)) 128 =
        .ok (some out') ∧ textOf out ≠ textOf out' := by
  have hshort : 89 ≤ (List.replicate 89 nul).length := (List.length_replicate).ge
  have hlong : 128 ≤ (List.replicate 128 nul).length := (List.length_replicate).ge
  constructor
  · rcases lines_of_events (markedEvent false 80 1) (markedEvent false 80 2) le_rfl hshort
      (by decide) hlong with ⟨out, out', hout, hout', _, htuple⟩
    exact ⟨out, out', hout, hout', (htuple rfl rfl).2 ⟨rfl, rfl, fun _ => rfl⟩⟩
  · rcases lines_of_events (markedEvent true 80 1) (markedEvent true 81 1) le_rfl hshort
      (by decide) hlong with ⟨out, out', hout, hout', hshown, _⟩
    refine ⟨out, out', hout, hout', fun hsame => ?_⟩
    exact absurd (hshown.1 hsame).lanSrcPort (by decide)

end Nfct
end Netdiag
