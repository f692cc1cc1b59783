import Netdiag.Buffer
import Netdiag.Parsers.Calls
import Netdiag.Nfct.Feed

/-!
# Inbox — what a context of a netlink parser is

An inbox is a buffer of events and a reading of bytes: what is fed to it is read on its own, and
put into the buffer as far as there are places.  That is all there is to a context of either
parser.  On a 64-bit platform no caller can tell it from an inbox that reads with the reference
decoder, whatever calls are made (`parser_is_inbox`); where the parser would never return, a reading
has no events either.
-/

namespace Netdiag

open Lib

/-! ## Inboxes -/

/-- The events in a buffer of bytes, if reading it comes to an end, and the places of an inbox that
is made for a size of `0`. -/
structure Reading (E : Type) where
  read : List UInt8 → Except Fault (List E)
  places : Nat

namespace Reading

variable {E : Type} (r : Reading E)

def step (b : Buffer E) : Parser.Call E → Except Fault (Buffer E × Parser.Result E)
  | .feedInput none => .ok (b, .code (-1))
  | .feedInput (some D) => (r.read D).map fun es => (b.pushAll es, .code 0)
  | .nextEvent none => .ok (b, .event (-1) none)
  | .nextEvent (some e) => .ok ((b.pop e).2.1, .event (b.pop e).1 (some (b.pop e).2.2))
  | .reset => .ok (b.clear, .done)

end Reading

/-! ## Parsers with inboxes -/

section Inboxes

variable {R E C : Type}

/-- Context and inbox after a call. -/
def Holds (ctx : Option (QueueCtx R E)) (b : Buffer E) : Prop :=
  ∃ c, ctx = some c ∧ c.buffer = b

/-- What makes a parser's contexts inboxes, for bytes that are `Fine`: it feeds what the reading
finds. -/
structure Parser.Reads (P : Parser R E C) (r : Reading E) (size : C → Nat)
    (Fine : List UInt8 → Prop) : Prop where
  create : ∀ role config, (P.createWithConfig role config).buffer =
    newBuffer r.places (config.elim 0 size)
  fed : ∀ {c D}, Fine D →
    P.feedInput (some c) (some D) = (r.read D).map fun es => (0, some (c.pushAll es))
  null : ∀ c, P.feedInput (some c) none = .ok (-1, some c)
  reset : ∀ c, ∃ c', P.reset (some c) = some c' ∧ c'.buffer = c.buffer.clear

/-- No caller can tell the parser's contexts from inboxes, whatever calls are made, if only fine
bytes are fed. -/
def Parser.IsInbox (P : Parser R E C) (r : Reading E) (size : C → Nat)
    (Fine : List UInt8 → Prop) : Prop :=
  ∀ role config calls, (∀ D, .feedInput (some D) ∈ calls → Fine D) →
    observe P.step (some (P.createWithConfig role config)) calls =
      observe r.step (newBuffer r.places (config.elim 0 size)) calls

namespace Parser.Reads

variable {P : Parser R E C} {r : Reading E} {size : C → Nat} {Fine : List UInt8 → Prop}

/-- The step lemma: a context and an inbox that agree do so after every call, and the call returns
the same. -/
theorem step_holds (h : P.Reads r size Fine) {call : Parser.Call E}
    (hfine : ∀ D, call = .feedInput (some D) → Fine D) (ctx : Option (QueueCtx R E))
    (b : Buffer E) (hholds : Holds ctx b) :
    RelOk (fun x y => Holds x.1 y.1 ∧ x.2 = y.2) (P.step ctx call) (r.step b call) := by
  rcases hholds with ⟨c, rfl, rfl⟩
  cases call with
  | feedInput data =>
      cases data with
      | none =>
          rw [Parser.step, h.null]
          exact .ok ⟨⟨c, rfl, rfl⟩, rfl⟩
      | some D =>
          rw [Parser.step, h.fed (hfine D rfl), Reading.step]
          cases r.read D with
          | error e => exact .error e
          | ok es => exact .ok ⟨⟨_, rfl, c.buffer_pushAll es⟩, rfl⟩
  | nextEvent e =>
      cases e with
      | none => exact .ok ⟨⟨c, rfl, rfl⟩, rfl⟩
      | some e =>
          rcases QueueCtx.pop_of_buffer (c := c) rfl e with ⟨hcode, hbuffer, hevent⟩
          refine .ok ⟨⟨_, rfl, hbuffer⟩, ?_⟩
          rw [← hcode, ← hevent]
          rfl
  | reset =>
      rcases h.reset c with ⟨c', hreset, hclear⟩
      rw [Parser.step, hreset]
      exact .ok ⟨⟨c', rfl, hclear⟩, rfl⟩

/-- The run lemma. -/
theorem isInbox (h : P.Reads r size Fine) : P.IsInbox r size Fine := by
  intro role config calls hfine
  have hnew : Holds (some (P.createWithConfig role config))
      (newBuffer r.places (config.elim 0 size)) :=
    ⟨_, rfl, h.create role config⟩
  refine observe_eq_of_mem (R := Holds) ?_ hnew
  intro call hcall ctx b hholds
  refine h.step_holds ?_ ctx b hholds
  rintro D rfl
  exact hfine D hcall

end Parser.Reads
end Inboxes

/-- A message that is too long to be rounded up keeps a buffer from being read to its end. -/
def Endless (D : List UInt8) : Prop :=
  ∃ f ∈ frames D, maxMsg < f.length

instance (D : List UInt8) : Decidable (Endless D) :=
  inferInstanceAs (Decidable (∃ f ∈ frames D, _))

theorem not_endless_iff {D : List UInt8} : ¬ Endless D ↔ ∀ f ∈ frames D, f.length ≤ maxMsg := by
  rw [Endless]
  push Not
  rfl

/-- The array fits the address space of a 64-bit platform. -/
def Fits64 (D : List UInt8) : Prop :=
  D.length < 2 ^ 63

/-! ## The two parsers -/

namespace Nfct

def reading : Reading Event where
  read D := if ¬ Synthetic D ∧ Endless D then .error .stuck else .ok (feedEvents D)
  places := 16

theorem feedInput_read {D : List UInt8} (hD : Fits64 D) (c : Ctx) :
    feedInput .lp64 (some c) (some D) =
      (reading.read D).map fun es => (0, some (c.pushAll es)) := by
  show _ = (if ¬ Synthetic D ∧ Endless D then _ else _ : Except Fault _).map _
  by_cases hendless : Endless D
  · -- A synthetic frame is taken before its bytes are looked at as messages.
    by_cases hsynth : Synthetic D
    · rw [if_neg fun h => h.1 hsynth, feedInput_of_synthetic hsynth, feedEvents, if_pos hsynth]
      rfl
    · rcases hendless with ⟨f, hf, hlong⟩
      rw [if_pos ⟨hsynth, f, hf, hlong⟩, feedInput_of_long hD hsynth hf hlong]
      rfl
  · rw [if_neg fun h => hendless h.2, feedInput_eq hD (not_endless_iff.1 hendless)]
    rfl

theorem buffer_createWithConfig (role : Role) (config : Option Config) :
    (createWithConfig role config).buffer =
      newBuffer reading.places (config.elim 0 Config.eventQueueSize) := by
  cases config with
  | none => exact QueueCtx.buffer_init dfltQsz_pos (by decide) role _ 16
  | some config => exact QueueCtx.buffer_init dfltQsz_pos (by decide) role _ config.eventQueueSize

theorem parser_reads : (parser .lp64).Reads reading Config.eventQueueSize Fits64 where
  create := buffer_createWithConfig
  fed hD := feedInput_read hD _
  null _ := rfl
  reset c := ⟨_, rfl, c.buffer_reset 16 dfltQsz_pos c.role⟩

end Nfct

namespace Nl80211

def reading : Reading Event where
  read D := if ¬ Synthetic D ∧ Endless D then .error .stuck else .ok (feedEvents D)
  places := 16

theorem parseFeedInput_of_endless {D : List UInt8} (hD : D.length < 2 ^ 63)
    (hsynth : ¬ Synthetic D) (hendless : Endless D) (c : Ctx) :
    parseFeedInput .lp64 (some c) (some D) = .error .stuck := by
  rcases hendless with ⟨f, hf, hlong⟩
  have hne : ¬ D.length = 0 := by
    have hle := length_le_of_mem_frames hf
    omega
  have hframed : ¬ Bare D := by
    intro hbare
    rw [frames_of_bare hbare] at hf
    cases hf
  rw [parseFeedInput_of_not_synthetic hne hsynth, parseNl80211Messages_eq, if_neg hframed,
    (messagesWalk hD).exec_of_long hf hlong]
  rfl

theorem parseFeedInput_read {D : List UInt8} (hD : Fits64 D) (c : Ctx) :
    parseFeedInput .lp64 (some c) (some D) =
      (reading.read D).map fun es => (0, some (c.pushAll es)) := by
  show _ = (if ¬ Synthetic D ∧ Endless D then _ else _ : Except Fault _).map _
  by_cases hendless : Endless D
  · by_cases hsynth : Synthetic D
    · rw [if_neg fun h => h.1 hsynth, parseFeedInput_of_synthetic hsynth, feedEvents,
        if_pos hsynth]
      rfl
    · rw [if_pos ⟨hsynth, hendless⟩, parseFeedInput_of_endless hD hsynth hendless]
      rfl
  · rw [if_neg fun h => hendless h.2, parseFeedInput_eq hD (not_endless_iff.1 hendless)]
    rfl

theorem buffer_parseCreateWithConfig (role : Role) (config : Option Config) :
    (parseCreateWithConfig role config).buffer =
      newBuffer reading.places (config.elim 0 Config.eventQueueSize) := by
  cases config with
  | none => exact QueueCtx.buffer_init dfltQsz_pos (by decide) role _ 16
  | some config => exact QueueCtx.buffer_init dfltQsz_pos (by decide) role _ config.eventQueueSize

theorem parser_reads : (parser .lp64).Reads reading Config.eventQueueSize Fits64 where
  create := buffer_parseCreateWithConfig
  fed hD := parseFeedInput_read hD _
  null _ := rfl
  reset c := ⟨_, rfl, c.buffer_reset 16 dfltQsz_pos c.role⟩

end Nl80211

/-- The contexts of both parsers are inboxes. -/
theorem parser_is_inbox :
    (Nfct.parser .lp64).IsInbox Nfct.reading Nfct.Config.eventQueueSize Fits64 ∧
    (Nl80211.parser .lp64).IsInbox Nl80211.reading Nl80211.Config.eventQueueSize Fits64 :=
  ⟨Nfct.parser_reads.isInbox, Nl80211.parser_reads.isInbox⟩

end Netdiag
