import Netdiag.Lib.Observe
import Netdiag.Parsers.Calls
import Netdiag.Probe.Reset

/-!
# Reset — the netlink parsers and dnsdiag after a reset

A reset of a parser leaves the events of the past in the slots of its ring.  No call reads them:
contexts with the same role, the same size and the same events in their queues look the same to
every caller, whatever their slots hold and wherever their heads stand
(`Parser.Lawful.observe_eq`).
-/

namespace Netdiag

open Lib

/-! ## Similar contexts -/

/-- The contexts agree in all that a call looks at. -/
structure QueueCtx.Similar {R E : Type} (a b : QueueCtx R E) : Prop where
  role : a.role = b.role
  qsz : a.qsz = b.qsz
  queued : a.queued = b.queued

theorem QueueCtx.Similar.pushAll {R E : Type} {a b : QueueCtx R E} (h : a.Similar b)
    (es : List E) : (a.pushAll es).Similar (b.pushAll es) := by
  refine ⟨?_, ?_, ?_⟩
  · rw [role_pushAll, role_pushAll, h.role]
  · rw [qsz_pushAll, qsz_pushAll, h.qsz]
  · rw [queued_pushAll, queued_pushAll, free, free, h.qsz, h.queued]

namespace Parser

variable {R E C : Type}

inductive SimilarPtr : Option (QueueCtx R E) → Option (QueueCtx R E) → Prop
  | null : SimilarPtr none none
  | ctx {a b : QueueCtx R E} : a.Similar b → SimilarPtr (some a) (some b)

/-- The results of a call agree, and the contexts that it leaves are similar. -/
def SameResult (x y : Option (QueueCtx R E) × Result E) : Prop :=
  SimilarPtr x.1 y.1 ∧ x.2 = y.2

variable {P : Parser R E C}

theorem Lawful.similar_feed (hP : P.Lawful) {a b : QueueCtx R E} (h : a.Similar b)
    (data : Option (List UInt8)) :
    RelOk SameResult (P.step (some a) (.feedInput data)) (P.step (some b) (.feedInput data)) := by
  cases data with
  | none =>
      rw [step, step, hP.null _ _ (.inr rfl), hP.null _ _ (.inr rfl)]
      exact .ok ⟨.ctx h, rfl⟩
  | some D =>
      -- Either the same events are queued in both contexts, or both calls fail.
      rw [step, step]
      rcases hP.feed_cases D with ⟨es, hfed⟩ | ⟨e, hfed⟩
      · rw [hfed a, hfed b]
        exact .ok ⟨.ctx (h.pushAll es), rfl⟩
      · rw [hfed a, hfed b]
        exact .error e

theorem similar_next {a b : QueueCtx R E} (h : a.Similar b) (event : Option E) :
    RelOk SameResult (P.step (some a) (.nextEvent event)) (P.step (some b) (.nextEvent event)) := by
  cases event with
  | none => exact .ok ⟨.ctx h, rfl⟩
  | some e =>
      cases hq : a.queued with
      | nil =>
          have hq' : b.queued = [] := h.queued ▸ hq
          rw [step, step, QueueCtx.next_of_nil hq, QueueCtx.next_of_nil hq']
          exact .ok ⟨.ctx h, rfl⟩
      | cons front rest =>
          have hq' : b.queued = front :: rest := h.queued ▸ hq
          -- The front is the same, whatever slots it stands in.
          rcases QueueCtx.next_of_cons hq e with ⟨a', hnext, hrest, hqsz, hrole⟩
          rcases QueueCtx.next_of_cons hq' e with ⟨b', hnext', hrest', hqsz', hrole'⟩
          rw [step, step, hnext, hnext']
          refine .ok ⟨.ctx ⟨?_, ?_, ?_⟩, rfl⟩
          · exact hrole.trans (h.role.trans hrole'.symm)
          · exact hqsz.trans (h.qsz.trans hqsz'.symm)
          · exact hrest.trans hrest'.symm

theorem similar_init {role : R} {r r' : RawRing E maxQ} (size : Nat) :
    (QueueCtx.init 16 dfltQsz_pos role r size).Similar
      (QueueCtx.init 16 dfltQsz_pos role r' size) :=
  ⟨rfl, rfl, (QueueCtx.queued_init _ _ _ _ _).trans (QueueCtx.queued_init _ _ _ _ _).symm⟩

/-- The step lemma: a call gives the same result on similar contexts, and leaves them similar. -/
theorem Lawful.similar_step (hP : P.Lawful) {s t : Option (QueueCtx R E)} (h : SimilarPtr s t)
    (call : Call E) : RelOk SameResult (P.step s call) (P.step t call) := by
  cases h with
  | null =>
      cases call with
      | feedInput data =>
          rw [step, hP.null _ _ (.inl rfl)]
          exact .ok ⟨.null, rfl⟩
      | nextEvent event => exact .ok ⟨.null, rfl⟩
      | reset =>
          rw [step, hP.reset]
          exact .ok ⟨.null, rfl⟩
  | @ctx a b hsim =>
      cases call with
      | feedInput data => exact hP.similar_feed hsim data
      | nextEvent event => exact similar_next hsim event
      | reset =>
          -- The rings that are reset differ, and both are empty afterwards.
          have hsame : (QueueCtx.init 16 dfltQsz_pos a.role a.ring.1 a.qsz).Similar
              (QueueCtx.init 16 dfltQsz_pos b.role b.ring.1 b.qsz) := by
            rw [hsim.role, hsim.qsz]
            exact similar_init b.qsz
          rw [step, step, hP.reset, hP.reset]
          exact .ok ⟨.ctx hsame, rfl⟩

/-- Similar contexts look the same to every caller. -/
theorem Lawful.observe_eq (hP : P.Lawful) {s t : Option (QueueCtx R E)} (h : SimilarPtr s t)
    (calls : List (Call E)) : observe P.step s calls = observe P.step t calls :=
  observe_eq_of_bisim (R := SimilarPtr) (fun _ _ call hsim => hP.similar_step hsim call) h calls

end Parser

/-! ## The two parsers -/

theorem Nfct.observe_reset (p : Platform) (c : Nfct.Ctx) (calls : List (Parser.Call Nfct.Event)) :
    observe (Nfct.parser p).step (Nfct.reset (some c)) calls =
      observe (Nfct.parser p).step (some (Nfct.createWithConfig c.role (some ⟨c.qsz⟩))) calls :=
  (Nfct.parser_lawful p).observe_eq (.ctx (Parser.similar_init c.qsz)) calls

theorem Nl80211.observe_reset (p : Platform) (c : Nl80211.Ctx)
    (calls : List (Parser.Call Nl80211.Event)) :
    observe (Nl80211.parser p).step (Nl80211.parseReset (some c)) calls =
      observe (Nl80211.parser p).step
        (some (Nl80211.parseCreateWithConfig c.role (some ⟨c.qsz⟩))) calls :=
  (Nl80211.parser_lawful p).observe_eq (.ctx (Parser.similar_init c.qsz)) calls

/-- After a reset, any context of the parsers and any context of dnsdiag that operations have led
to looks like a new one with the same role and queue size. -/
theorem reset_looks_fresh :
    (∀ p (c : Nfct.Ctx) calls,
      observe (Nfct.parser p).step (Nfct.reset (some c)) calls =
        observe (Nfct.parser p).step (some (Nfct.createWithConfig c.role (some ⟨c.qsz⟩))) calls) ∧
    (∀ p (c : Nl80211.Ctx) calls,
      observe (Nl80211.parser p).step (Nl80211.parseReset (some c)) calls =
        observe (Nl80211.parser p).step
          (some (Nl80211.parseCreateWithConfig c.role (some ⟨c.qsz⟩))) calls) ∧
    (∀ c, Dnsdiag.dnsdiag.Reachable c → ∀ calls,
      observe Dnsdiag.dnsdiag.step (Dnsdiag.reset (some c)) calls =
        observe Dnsdiag.dnsdiag.step
          (some (Dnsdiag.createWithConfig c.role (some ⟨c.qsz⟩))) calls) :=
  ⟨Nfct.observe_reset, Nl80211.observe_reset, fun _ h => Dnsdiag.observe_reset h⟩

/-- A responder of dnsdiag that has been fed a message. -/
theorem reset_looks_fresh_responder :
    observe Dnsdiag.dnsdiag.step
        (Dnsdiag.reset (some ((Dnsdiag.create .responder).request 7)))
        [.feedInput (some (List.replicate 12 0)), .process 5000, .nextEvent (some {})] =
      observe Dnsdiag.dnsdiag.step (some (Dnsdiag.createWithConfig .responder (some ⟨8⟩)))
        [.feedInput (some (List.replicate 12 0)), .process 5000, .nextEvent (some {})] := by
  have hfeed : Dnsdiag.dnsdiag.step (some (Dnsdiag.create .responder))
      (.feedInputWithTs (some (List.replicate 12 0)) 7) =
        .ok (some ((Dnsdiag.create .responder).request 7), .code 0) := rfl
  exact reset_looks_fresh.2.2 _ (.call (.create .responder none) hfeed) _

end Netdiag
