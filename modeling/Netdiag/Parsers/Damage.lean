import Netdiag.Lib.OneOff
import Netdiag.Netlink.Payload
import Netdiag.Nfct.Contain
import Netdiag.Nl80211.Streams
import Netdiag.Parsers.Inbox

/-!
# Damage — a damaged message costs its own event and no other

Bytes of a message are overwritten somewhere behind its length.  Both parsers find the same
messages, and the events of a buffer are the same but for that of this message; so are those that
the caller of a run takes, whatever calls are made before and after, and every call returns the
same (`damage_contained`).  A station event is there only if the message names a station, so here
the message must still name one if it did before, or still name none.
-/

namespace Netdiag

open Lib

/-! ## Overwriting a message -/

/-- The bytes, written `i` bytes behind the start of the message of `n` bytes at `off`, fall on the
message, behind its length. -/
structure Hits (D : List UInt8) (off n i : Nat) (q : List UInt8) : Prop where
  offset : msgFraming.Offset D off
  size : msgFraming.size (D.drop off) = some n
  behind : 4 ≤ i
  inside : i + q.length ≤ n

namespace Hits

variable {D q : List UInt8} {off n i : Nat}

theorem size_overwrite (h : Hits D off n i q) :
    msgFraming.size (overwrite (D.drop off) i q) = some n := by
  have hbehind := h.behind
  have hinside := h.inside
  rcases msgFraming_size_eq_some.1 h.size with ⟨hheader, hmin, hmax, hlen⟩
  have hlength : (overwrite (D.drop off) i q).length = (D.drop off).length :=
    length_overwrite (by omega)
  have hsame : nlmsgLen (overwrite (D.drop off) i q) = nlmsgLen (D.drop off) := by
    rw [nlmsgLen, ← le32At_take (by omega : 0 + 4 ≤ 4), take_overwrite_of_le hbehind (by omega),
      le32At_take (by omega), nlmsgLen]
  refine msgFraming_size_eq_some.2 ⟨?_, hmin, ?_, hsame.symm ▸ hlen⟩
  · rw [hlength]
    exact hheader
  · rw [hlength]
    exact hmax

theorem add_le (h : Hits D off n i q) : off + i + q.length ≤ D.length := by
  have hinside := h.inside
  have hend := Framing.add_size_le h.size
  omega

theorem length_overwrite (h : Hits D off n i q) :
    (overwrite D (off + i) q).length = D.length :=
  Lib.length_overwrite h.add_le

/-- The message, and what it becomes. -/
def Becomes (D : List UInt8) (off n i : Nat) (q m m' : List UInt8) : Prop :=
  m = (D.drop off).take n ∧ m' = overwrite m i q

theorem length_eq (h : Hits D off n i q) {m m' : List UInt8} (hbecomes : Becomes D off n i q m m') :
    m.length = m'.length := by
  have hinside := h.inside
  rcases hbecomes with ⟨rfl, rfl⟩
  have hlen : ((D.drop off).take n).length = n :=
    List.length_take_of_le (msgFraming_size_eq_some.1 h.size).2.2.1
  rw [Lib.length_overwrite (by omega)]

/-- The parsers find the same messages but for this one. -/
theorem frames_oneOff (h : Hits D off n i q) :
    OneOff (Becomes D off n i q) (frames D) (frames (overwrite D (off + i) q)) := by
  rw [frames, frames, h.offset.split_eq h.size,
    h.offset.split_overwrite h.size h.inside h.size_overwrite]
  exact (OneOff.here _ ⟨rfl, rfl⟩).prepend _

theorem fullFrames_oneOff (h : Hits D off n i q) :
    OneOff (Becomes D off n i q) (fullFrames D) (fullFrames (overwrite D (off + i) q)) :=
  h.frames_oneOff.filter fun _ _ hbecomes => by rw [h.length_eq hbecomes]

/-- The lengths stay, and with them what holds the loops. -/
theorem endless_iff (h : Hits D off n i q) : Endless (overwrite D (off + i) q) ↔ Endless D := by
  have hlengths : ∀ D, Endless D ↔ ∃ k ∈ (frames D).map List.length, maxMsg < k := by
    intro D
    simp only [Endless, List.mem_map, exists_exists_and_eq_and]
  rw [hlengths, hlengths, h.frames_oneOff.map_eq fun _ _ => h.length_eq]

theorem frames_ne_nil (h : Hits D off n i q) : frames (overwrite D (off + i) q) ≠ [] := by
  rw [frames, h.offset.split_overwrite h.size h.inside h.size_overwrite]
  simp

/-- The bytes that the magic of a synthetic frame has are not written. -/
theorem be32At_overwrite (h : Hits D off n i q) :
    be32At (overwrite D (off + i) q) 0 = be32At D 0 := by
  have hbehind := h.behind
  have hle := h.add_le
  rw [← be32At_take (by omega : 0 + 4 ≤ 4), take_overwrite_of_le (by omega) (by omega),
    be32At_take (by omega)]

end Hits

/-- The event of the message, and that of what it becomes. -/
def Changes {E : Type} (event : List UInt8 → E) (D : List UInt8) (off n i : Nat)
    (q : List UInt8) (ev ev' : E) : Prop :=
  ev = event ((D.drop off).take n) ∧ ev' = event (overwrite ((D.drop off).take n) i q)

theorem changes_of_becomes {E : Type} (event : List UInt8 → E) {D q m m' : List UInt8}
    {off n i : Nat} (h : Hits.Becomes D off n i q m m') :
    Changes event D off n i q (event m) (event m') := by
  rcases h with ⟨rfl, rfl⟩
  exact ⟨rfl, rfl⟩

/-! ## Runs -/

section Runs

variable {R E C : Type}

/-- Both calls returned an event, and these are related. -/
def Parser.Result.Both (S : E → E → Prop) (r r' : Parser.Result E) : Prop :=
  ∃ e e', S e e' ∧ r = .event 1 (some e) ∧ r' = .event 1 (some e')

/-- The step lemma: inboxes whose events differ in one place keep the difference, or give it to the
caller. -/
theorem Reading.step_differs (r : Reading E) {S : E → E → Prop} (a b : Buffer E)
    (call : Parser.Call E) (h : a.Differs S b) :
    RelOk (KeepsOrShows (Buffer.Differs S) (Parser.Result.Both S)) (r.step a call)
      (r.step b call) := by
  cases call with
  | feedInput data =>
      cases data with
      | none => exact .ok (.inl ⟨h, rfl⟩)
      | some D =>
          rw [Reading.step, Reading.step]
          cases r.read D with
          | error e => exact .error e
          | ok es => exact .ok (.inl ⟨h.pushAll es, rfl⟩)
  | nextEvent e =>
      cases e with
      | none => exact .ok (.inl ⟨h, rfl⟩)
      | some e =>
          rw [Reading.step, Reading.step]
          rcases h.pop e with ⟨hrest, hcode, hevent⟩ | ⟨hrest, hcode, hcode', hS⟩
          · rw [hcode, hevent]
            exact .ok (.inl ⟨hrest, rfl⟩)
          · rw [hcode, hcode']
            exact .ok (.inr ⟨hrest, _, _, hS, rfl, rfl⟩)
  | reset => exact .ok (.inl ⟨h.clear, rfl⟩)

/-- The run lemma: one of the buffers that are fed is another, whose events differ in one place. -/
theorem Reading.observe_oneOff (r : Reading E) {S : E → E → Prop} {D D' : List UInt8}
    (hread : RelOk (OneOff S) (r.read D) (r.read D')) (b : Buffer E)
    (before after : List (Parser.Call E)) :
    OneOff (RelOk (Parser.Result.Both S))
      (observe r.step b (before ++ .feedInput (some D) :: after))
      (observe r.step b (before ++ .feedInput (some D') :: after)) := by
  refine observe_oneOff_of_input r.step_differs (fun b => ?_) b before after
  rw [Reading.step, Reading.step]
  generalize r.read D = left at hread ⊢
  generalize r.read D' = right at hread ⊢
  cases hread with
  | ok hevents => exact .ok ⟨b.differs_pushAll hevents, rfl⟩
  | error e => exact .error e

/-- What the caller of a run is given differs in one event at most, if the events of one of the
buffers do. -/
theorem Parser.IsInbox.observe_oneOff {P : Parser R E C} {r : Reading E} {size : C → Nat}
    {Fine : List UInt8 → Prop} (h : P.IsInbox r size Fine) {S : E → E → Prop}
    {D D' : List UInt8} (hread : RelOk (OneOff S) (r.read D) (r.read D')) (role : R)
    (config : Option C) {before after : List (Parser.Call E)}
    (hfine : ∀ B, .feedInput (some B) ∈ before ++ .feedInput (some D) :: after → Fine B)
    (hfine' : Fine D') :
    OneOff (RelOk (Parser.Result.Both S))
      (observe P.step (some (P.createWithConfig role config))
        (before ++ .feedInput (some D) :: after))
      (observe P.step (some (P.createWithConfig role config))
        (before ++ .feedInput (some D') :: after)) := by
  rw [h role config _ hfine, h role config]
  · exact r.observe_oneOff hread _ before after
  · intro B hB
    rw [List.mem_append, List.mem_cons] at hB
    rcases hB with hB | hB | hB
    · exact hfine B (List.mem_append_left _ hB)
    · cases hB
      exact hfine'
    · exact hfine B (List.mem_append_right _ (List.mem_cons_of_mem _ hB))

end Runs

/-! ## The two parsers -/

namespace Nfct

variable {D q : List UInt8} {off n i : Nat}

theorem read_oneOff (h : Hits D off n i q) (hsynth : ¬ Synthetic D) :
    RelOk (OneOff (Changes frameEvent D off n i q)) (reading.read D)
      (reading.read (overwrite D (off + i) q)) := by
  have hsynth' : ¬ Synthetic (overwrite D (off + i) q) := by
    rw [Synthetic, h.length_overwrite, h.be32At_overwrite]
    exact hsynth
  show RelOk _ (if ¬ Synthetic D ∧ Endless D then _ else _ : Except Fault _)
    (if ¬ Synthetic _ ∧ Endless _ then _ else _ : Except Fault _)
  by_cases hendless : Endless D
  · rw [if_pos ⟨hsynth, hendless⟩, if_pos ⟨hsynth', h.endless_iff.2 hendless⟩]
    exact .error _
  · rw [if_neg fun hboth => hendless hboth.2,
      if_neg fun hboth => hendless (h.endless_iff.1 hboth.2), feedEvents, feedEvents,
      if_neg hsynth, if_neg hsynth']
    exact .ok (h.fullFrames_oneOff.map fun _ _ => changes_of_becomes frameEvent)

end Nfct

namespace Nl80211

variable {D q : List UInt8} {off n i : Nat}

/-- The message names a station after the damage exactly if it did so before. -/
def NamesAsBefore (D : List UInt8) (off n i : Nat) (q : List UInt8) : Prop :=
  (frameEvent (overwrite ((D.drop off).take n) i q)).named =
    (frameEvent ((D.drop off).take n)).named

theorem read_oneOff (h : Hits D off n i q) (hsynth : ¬ Synthetic D)
    (hnames : NamesAsBefore D off n i q) :
    RelOk (OneOff (Changes frameEvent D off n i q)) (reading.read D)
      (reading.read (overwrite D (off + i) q)) := by
  have hsynth' : ¬ Synthetic (overwrite D (off + i) q) := by
    rw [Synthetic, h.length_overwrite, h.be32At_overwrite]
    exact hsynth
  -- There is a message in both buffers, so that neither is a stream of attributes.
  have hbare : ¬ Bare D := by
    intro hbare
    have hlengths := h.frames_oneOff.length_eq
    rw [frames_of_bare hbare, List.length_nil] at hlengths
    exact h.frames_ne_nil (List.length_eq_zero_iff.1 hlengths.symm)
  have hbare' : ¬ Bare (overwrite D (off + i) q) :=
    fun hbare' => h.frames_ne_nil (frames_of_bare hbare')
  show RelOk _ (if ¬ Synthetic D ∧ Endless D then _ else _ : Except Fault _)
    (if ¬ Synthetic _ ∧ Endless _ then _ else _ : Except Fault _)
  by_cases hendless : Endless D
  · rw [if_pos ⟨hsynth, hendless⟩, if_pos ⟨hsynth', h.endless_iff.2 hendless⟩]
    exact .error _
  · rw [if_neg fun hboth => hendless hboth.2,
      if_neg fun hboth => hendless (h.endless_iff.1 hboth.2), feedEvents, feedEvents,
      if_neg hsynth, if_neg hsynth', if_neg hbare, if_neg hbare']
    have hevents := h.fullFrames_oneOff.map fun _ _ => changes_of_becomes frameEvent
    refine .ok (hevents.filter ?_)
    rintro ev ev' ⟨rfl, rfl⟩
    exact hnames.symm

end Nl80211

/-- Whatever bytes of a message behind its length are overwritten in one of the buffers that are
fed, in whatever run: every call returns what it returned, and of the events that the caller is
given none changes but that of the message. -/
def Parser.ContainsDamage {R E C : Type} (P : Parser R E C) (event : List UInt8 → E)
    (Synthetic : List UInt8 → Prop)
    (Kept : List UInt8 → Nat → Nat → Nat → List UInt8 → Prop) : Prop :=
  ∀ role config before after D off n i q,
    (∀ B, .feedInput (some B) ∈ before ++ .feedInput (some D) :: after → Fits64 B) →
    ¬ Synthetic D → Hits D off n i q → Kept D off n i q →
    OneOff (RelOk (Parser.Result.Both (Changes event D off n i q)))
      (observe P.step (some (P.createWithConfig role config))
        (before ++ .feedInput (some D) :: after))
      (observe P.step (some (P.createWithConfig role config))
        (before ++ .feedInput (some (overwrite D (off + i) q)) :: after))

theorem Parser.IsInbox.containsDamage {R E C : Type} {P : Parser R E C} {r : Reading E}
    {size : C → Nat} (hP : P.IsInbox r size Fits64) {event : List UInt8 → E}
    {Synthetic : List UInt8 → Prop} {Kept : List UInt8 → Nat → Nat → Nat → List UInt8 → Prop}
    (hread : ∀ {D off n i q}, Hits D off n i q → ¬ Synthetic D → Kept D off n i q →
      RelOk (OneOff (Changes event D off n i q)) (r.read D) (r.read (overwrite D (off + i) q))) :
    P.ContainsDamage event Synthetic Kept := by
  intro role config before after D off n i q hfine hsynth h hkept
  have hfits : Fits64 (overwrite D (off + i) q) := by
    rw [Fits64, h.length_overwrite]
    exact hfine D (List.mem_append_right _ List.mem_cons_self)
  exact hP.observe_oneOff (hread h hsynth hkept) role config hfine hfits

/-- Damage to a message is contained, for both parsers. -/
theorem damage_contained :
    (Nfct.parser .lp64).ContainsDamage Nfct.frameEvent Nfct.Synthetic (fun _ _ _ _ _ => True) ∧
    (Nl80211.parser .lp64).ContainsDamage Nl80211.frameEvent Nl80211.Synthetic
      Nl80211.NamesAsBefore :=
  ⟨Nfct.parser_reads.isInbox.containsDamage fun h hsynth _ => Nfct.read_oneOff h hsynth,
    Nl80211.parser_reads.isInbox.containsDamage Nl80211.read_oneOff⟩

/-- Zeros in place of the tuples of a connection, and of the last byte of the MAC of a station. -/
theorem damage_contained_zeros :
    OneOff (RelOk (Parser.Result.Both
        (Changes Nfct.frameEvent Nfct.natMessage 0 52 20 (List.replicate 32 0))))
      (observe (Nfct.parser .lp64).step (some (Nfct.createWithConfig .collector none))
        ([] ++ .feedInput (some Nfct.natMessage) :: [.nextEvent (some {})]))
      (observe (Nfct.parser .lp64).step (some (Nfct.createWithConfig .collector none))
        ([] ++ .feedInput (some (overwrite Nfct.natMessage (0 + 20) (List.replicate 32 0))) ::
          [.nextEvent (some {})])) ∧
    OneOff (RelOk (Parser.Result.Both
        (Changes Nl80211.frameEvent Nl80211.macDump 20 30 29 [0])))
      (observe (Nl80211.parser .lp64).step (some (Nl80211.parseCreateWithConfig .collector none))
        ([] ++ .feedInput (some Nl80211.macDump) :: [.nextEvent (some {})]))
      (observe (Nl80211.parser .lp64).step (some (Nl80211.parseCreateWithConfig .collector none))
        ([] ++ .feedInput (some (overwrite Nl80211.macDump (20 + 29) [0])) ::
          [.nextEvent (some {})])) := by
  have hfits : ∀ {E : Type} {D : List UInt8} {e : E}, D.length < 2 ^ 63 → ∀ B,
      Parser.Call.feedInput (some B) ∈
        [] ++ Parser.Call.feedInput (some D) :: [.nextEvent (some e)] → Fits64 B := by
    intro E D e hD B hB
    rw [List.nil_append, List.mem_cons, List.mem_singleton] at hB
    rcases hB with hB | hB
    · cases hB
      exact hD
    · cases hB
  have hnat : msgFraming.size (Nfct.natMessage.drop 0) = some 52 := by decide
  have hempty : msgFraming.size (Nl80211.macDump.drop 0) = some 20 := by decide
  have hmac : msgFraming.size (Nl80211.macDump.drop 20) = some 30 := by decide
  have hnames : (Nl80211.frameEvent (overwrite ((Nl80211.macDump.drop 20).take 30) 29 [0])).named =
      (Nl80211.frameEvent ((Nl80211.macDump.drop 20).take 30)).named := by
    decide
  exact ⟨damage_contained.1 .collector none [] _ _ 0 52 20 _ (hfits (by decide)) (by decide)
      ⟨.start, hnat, by decide, by decide⟩ trivial,
    damage_contained.2 .collector none [] _ _ 20 30 29 _ (hfits (by decide)) (by decide)
      ⟨.next .start hempty, hmac, by decide, by decide⟩ hnames⟩

end Netdiag
