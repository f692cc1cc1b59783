import Netdiag.Lib.Uniform
import Netdiag.Nfct.Parse
import Netdiag.Nl80211.Feed

/-!
# Calls — the public functions of the netlink parsers as one system

Both parsers have the same public functions on a context: feed a buffer, take an event, reset.
`Parser.step` is the system that a caller drives with them.

What a call queues does not depend on the context.  On any platform and for any bytes, a buffer is
fed to every context with the same events, or fails in the same way on every context
(`Nfct.feedInput_uniform`, `Nl80211.parseFeedInput_uniform`).
-/

namespace Netdiag

open Lib

/-! ## The system -/

/-- The functions in which the parsers differ, over the types of their roles, events and
configurations. -/
structure Parser (R E C : Type) where
  createWithConfig : R → Option C → QueueCtx R E
  feedInput : Option (QueueCtx R E) → Option (List UInt8) →
    Except Fault (Int × Option (QueueCtx R E))
  reset : Option (QueueCtx R E) → Option (QueueCtx R E)

namespace Parser

variable {R E C : Type}

/-- The arguments are the pointers, `none` for `NULL`. -/
inductive Call (E : Type)
  | feedInput (data : Option (List UInt8))
  | nextEvent (event : Option E)
  | reset

/-- What a call returns, and the event that it leaves behind the pointer it was given. -/
inductive Result (E : Type)
  | code (r : Int)
  | event (r : Int) (e : Option E)
  | done

def step (P : Parser R E C) (ctx : Option (QueueCtx R E)) :
    Call E → Except Fault (Option (QueueCtx R E) × Result E)
  | .feedInput data => do
      let (r, ctx) ← P.feedInput ctx data
      return (ctx, .code r)
  | .nextEvent e =>
      let (r, ctx, e) := QueueCtx.next ctx e
      return (ctx, .event r e)
  | .reset => return (P.reset ctx, .done)

end Parser

/-! ## Queueing the same in every context -/

namespace QueueCtx

variable {R E : Type}

/-- Queue some events, the same ones whatever the context. -/
def Pushes (k : QueueCtx R E → QueueCtx R E) : Prop :=
  ∃ es, ∀ c, k c = c.pushAll es

theorem Pushes.same : Pushes (fun c : QueueCtx R E => c) :=
  ⟨[], fun _ => rfl⟩

theorem Pushes.push (e : E) : Pushes (fun c : QueueCtx R E => (c.push e).1) :=
  ⟨[e], fun _ => rfl⟩

theorem Pushes.comp (f g : QueueCtx R E → QueueCtx R E) (hf : Pushes f) (hg : Pushes g) :
    Pushes (g ∘ f) := by
  rcases hf with ⟨es, hf⟩
  rcases hg with ⟨fs, hg⟩
  refine ⟨es ++ fs, fun c => ?_⟩
  rw [Function.comp_apply, hg, hf, pushAll_append]

/-- Queue the same events whatever the context, and tell whether to go on. -/
def PushesAnd (k : QueueCtx R E → QueueCtx R E × Bool) : Prop :=
  ∃ f taken, Pushes f ∧ ∀ c, k c = (f c, taken)

end QueueCtx

/-- What `*_feed_input` does with a context and a buffer. -/
def Parser.Fed {R E : Type} (k : QueueCtx R E → Int × Option (QueueCtx R E)) : Prop :=
  ∃ es, ∀ c, k c = (0, some (c.pushAll es))

/-- What the public functions of a parser have to do with its queue. -/
structure Parser.Lawful {R E C : Type} (P : Parser R E C) : Prop where
  create : ∀ role config, ∃ r size,
    P.createWithConfig role config = QueueCtx.init 16 dfltQsz_pos role r size
  feed : ∀ D, Uniform Parser.Fed (fun c => P.feedInput (some c) (some D))
  null : ∀ ctx data, ctx = none ∨ data = none → P.feedInput ctx data = .ok (-1, ctx)
  reset : ∀ ctx, P.reset ctx =
    ctx.map fun c => QueueCtx.init 16 dfltQsz_pos c.role c.ring.1 c.qsz

theorem Parser.Lawful.feed_cases {R E C : Type} {P : Parser R E C} (hP : P.Lawful)
    (D : List UInt8) :
    (∃ es, ∀ c, P.feedInput (some c) (some D) = .ok (0, some (c.pushAll es))) ∨
      ∃ e, ∀ c, P.feedInput (some c) (some D) = .error e := by
  rcases hP.feed D with ⟨k, ⟨es, hk⟩, hfed⟩ | hfails
  · exact .inl ⟨es, fun c => (hfed c).trans (by rw [hk c])⟩
  · exact .inr hfails

/-- The frame of both feeding functions: the synthetic path first, then the messages. -/
theorem uniform_feed {R E : Type} {synth : QueueCtx R E → Except Fault (QueueCtx R E × Bool)}
    {parse : QueueCtx R E → Except Fault (QueueCtx R E)}
    (hsynth : Uniform QueueCtx.PushesAnd synth) (hparse : Uniform QueueCtx.Pushes parse) :
    Uniform Parser.Fed (fun c => do
      let (c, taken) ← synth c
      if taken then
        return (0, some c)
      else
        let c ← parse c
        return (0, some c)) := by
  refine Uniform.bind hsynth ?_
  rintro k ⟨f, taken, ⟨es, hf⟩, hk⟩
  simp only [hk]
  cases taken with
  | true => exact .inl ⟨fun c => (0, some (f c)), ⟨es, fun c => by simp only [hf]⟩, fun _ => rfl⟩
  | false =>
      rcases hparse with ⟨g, ⟨fs, hg⟩, hparse⟩ | ⟨e, he⟩
      · -- The events of the messages come behind those of the synthetic path.
        refine .inl ⟨fun c => (0, some (g (f c))), ⟨es ++ fs, fun c => ?_⟩, fun c => ?_⟩
        · simp only [hg, hf, QueueCtx.pushAll_append]
        · simp [hparse, bind, Except.bind, pure, Except.pure]
      · refine .inr ⟨e, fun c => ?_⟩
        simp [he, bind, Except.bind]

/-! ## Conntrack -/

namespace Nfct

open QueueCtx

variable (p : Platform) (D : List UInt8)

theorem netlinkTurn_uniform (off : Nat) :
    Uniform (Uniform.TurnShape Pushes) (fun c => netlinkTurn p D (off, c)) := by
  simp only [netlinkTurn, netlinkTurnWith]
  split_ifs with hhdr
  · refine Uniform.bind_same _ fun nlLen => Uniform.bind_same _ fun nlType =>
      Uniform.bind_same _ fun nlFlags => ?_
    split_ifs with hbad hshort hfit
    · exact Uniform.leave Pushes.same
    · exact Uniform.again _ Pushes.same
    -- The other two make an event, one of them without a look at the attributes.
    · refine Uniform.bind_same _ fun family => Uniform.bind_same _ fun ev => ?_
      exact Uniform.again _ (Pushes.push _)
    · refine Uniform.bind_same _ fun family => Uniform.bind_same _ fun ev => ?_
      exact Uniform.again _ (Pushes.push _)
  · exact Uniform.leave Pushes.same

theorem parseNetlink_uniform : Uniform Pushes (fun c => parseNetlink p D c) :=
  Uniform.exec Pushes.comp (netlinkTurn_uniform p D) _ _ 0

theorem trySynth_uniform : Uniform PushesAnd (fun c => trySynth D c) := by
  simp only [trySynth]
  by_cases hlen : D.length < 32
  · simp only [if_pos hlen]
    exact Uniform.ok ⟨_, false, Pushes.same, fun _ => rfl⟩
  · simp only [if_neg hlen]
    refine Uniform.bind_same _ fun magic => ?_
    by_cases hmagic : magic ≠ synthMagic
    · simp only [if_pos hmagic]
      exact Uniform.ok ⟨_, false, Pushes.same, fun _ => rfl⟩
    · simp only [if_neg hmagic]
      refine Uniform.bind_same _ fun kind => Uniform.bind_same _ fun protocol =>
        Uniform.bind_same _ fun lanSrcIp => Uniform.bind_same _ fun lanSrcPort =>
        Uniform.bind_same _ fun lanDstIp => Uniform.bind_same _ fun lanDstPort =>
        Uniform.bind_same _ fun wanSrcIp => Uniform.bind_same _ fun wanSrcPort =>
        Uniform.bind_same _ fun wanDstIp => Uniform.bind_same _ fun wanDstPort => ?_
      exact Uniform.ok ⟨_, true, Pushes.push _, fun _ => rfl⟩

/-- What feeding a buffer does, whatever the context. -/
theorem feedInput_uniform : Uniform Parser.Fed (fun c => feedInput p (some c) (some D)) := by
  simp only [feedInput]
  split_ifs with hempty
  · exact Uniform.ok ⟨[], fun _ => rfl⟩
  · exact uniform_feed (trySynth_uniform D) (parseNetlink_uniform p D)

/-- The public functions of `nfct.c`. -/
def parser : Parser Role Event Config where
  createWithConfig := createWithConfig
  feedInput := feedInput p
  reset := reset

theorem parser_lawful : (parser p).Lawful where
  create := fun _ _ => ⟨_, _, rfl⟩
  feed := feedInput_uniform p
  null := by
    rintro ctx data (rfl | rfl)
    · rfl
    · cases ctx <;> rfl
  reset := fun _ => rfl

end Nfct

/-! ## Stations -/

namespace Nl80211

open QueueCtx

variable (p : Platform) (D : List UInt8)

theorem messagesTurn_uniform (off : Nat) :
    Uniform (Uniform.TurnShape Pushes) (fun c => messagesTurn p D (off, c)) := by
  simp only [messagesTurn, messagesTurnWith]
  by_cases hhdr : p.add off 16 ≤ D.length
  · simp only [if_pos hhdr]
    refine Uniform.bind_same _ fun nlLen => ?_
    by_cases hbad : nlLen < 16 ∨ D.length < p.add off nlLen.toNat
    · simp only [if_pos hbad]
      exact Uniform.leave Pushes.same
    · simp only [if_neg hbad]
      by_cases hshort : nlLen < 20
      · simp only [if_pos hshort]
        exact Uniform.again _ Pushes.same
      · simp only [if_neg hshort]
        -- Whether the event is queued depends on the event alone.
        refine Uniform.bind_same _ fun ev => ?_
        cases ev.hasMac || ev.hasSignal with
        | true => exact Uniform.again _ (Pushes.push ev)
        | false => exact Uniform.again _ Pushes.same
  · simp only [if_neg hhdr]
    exact Uniform.leave Pushes.same

theorem parseNl80211Messages_uniform :
    Uniform Pushes (fun c => parseNl80211Messages p D c) := by
  simp only [parseNl80211Messages_eq]
  split_ifs with hbare
  · exact Uniform.bind_same _ fun ev => Uniform.ok (Pushes.push _)
  · exact Uniform.exec Pushes.comp (messagesTurn_uniform p D) _ _ 0

theorem trySynth_uniform : Uniform PushesAnd (fun c => trySynth D c) := by
  simp only [trySynth]
  by_cases hlen : D.length < 20
  · simp only [if_pos hlen]
    exact Uniform.ok ⟨_, false, Pushes.same, fun _ => rfl⟩
  · simp only [if_neg hlen]
    refine Uniform.bind_same _ fun magic => ?_
    by_cases hmagic : magic ≠ synthMagic
    · simp only [if_pos hmagic]
      exact Uniform.ok ⟨_, false, Pushes.same, fun _ => rfl⟩
    · simp only [if_neg hmagic]
      refine Uniform.bind_same _ fun clientMac => Uniform.bind_same _ fun signalDbm =>
        Uniform.bind_same _ fun snr => Uniform.bind_same _ fun mcsIndex =>
        Uniform.bind_same _ fun txRetries => ?_
      exact Uniform.ok ⟨_, true, Pushes.push _, fun _ => rfl⟩

theorem parseFeedInput_uniform :
    Uniform Parser.Fed (fun c => parseFeedInput p (some c) (some D)) := by
  simp only [parseFeedInput]
  split_ifs with hempty
  · exact Uniform.ok ⟨[], fun _ => rfl⟩
  · exact uniform_feed (trySynth_uniform D) (parseNl80211Messages_uniform p D)

/-- The public functions of `nl80211_parse.c`. -/
def parser : Parser Role Event Config where
  createWithConfig := parseCreateWithConfig
  feedInput := parseFeedInput p
  reset := parseReset

theorem parser_lawful : (parser p).Lawful where
  create := fun _ _ => ⟨_, _, rfl⟩
  feed := parseFeedInput_uniform p
  null := by
    rintro ctx data (rfl | rfl)
    · rfl
    · cases ctx <;> rfl
  reset := fun _ => rfl

end Nl80211
end Netdiag
