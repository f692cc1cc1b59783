import Netdiag.Probe.Coupling

/-!
# History — the steps of a run of calls

`Module.visits` lists a run as the contexts that the calls find, each with its call.  What has
happened in a run, the events that were queued in it for example, is read off this list, and
`play_history` is the rule that takes an invariant of a context and its past through a run.
-/

namespace Netdiag
namespace Probe

open Lib

variable {X : Type}

/-- One step of a run: a context and the call that finds it. -/
abbrev Visit (X : Type) : Type := Ctx X × Call

namespace Module

variable (m : Module X)

/-- The steps of the run that the calls make, up to the first that does not return. -/
def visits (c : Ctx X) : List Call → List (Visit X)
  | [] => []
  | call :: calls => (c, call) ::
      match m.step (some c) call with
      | .ok (some c', _) => visits c' calls
      | _ => []

variable {m}

theorem visits_cons {c c' : Ctx X} {call : Call} {r : Result}
    (h : m.step (some c) call = .ok (some c', r)) (calls : List Call) :
    m.visits c (call :: calls) = (c, call) :: m.visits c' calls := by
  rw [visits, h]

theorem call_of_mem_visits {c : Ctx X} {calls : List Call} {v : Visit X}
    (h : v ∈ m.visits c calls) : v.2 ∈ calls := by
  induction calls generalizing c with
  | nil => cases h
  | cons call calls ih =>
      rw [visits] at h
      rcases List.mem_cons.1 h with rfl | hrest
      · exact List.mem_cons_self
      · refine List.mem_cons_of_mem _ ?_
        split at hrest
        · exact ih hrest
        · cases hrest

theorem visits_append {c c' : Ctx X} {calls : List Call}
    (h : m.play (some c) calls = .ok (some c')) (more : List Call) :
    m.visits c (calls ++ more) = m.visits c calls ++ m.visits c' more := by
  induction calls generalizing c with
  | nil =>
      cases h
      rfl
  | cons call calls ih =>
      rw [play] at h
      cases hfirst : m.step (some c) call with
      | error e =>
          rw [hfirst] at h
          cases h
      | ok x =>
          rcases x with ⟨p, r⟩
          rcases step_transition hfirst with ⟨c₁, rfl, _⟩
          rw [hfirst] at h
          rw [List.cons_append, visits_cons hfirst, visits_cons hfirst, List.cons_append, ih h]

/-- A step of a run comes after a run of the calls before it. -/
theorem exists_play_of_mem_visits {c : Ctx X} {calls : List Call} {v : Visit X}
    (h : v ∈ m.visits c calls) :
    ∃ before, before ++ [v.2] <+: calls ∧ m.play (some c) before = .ok (some v.1) := by
  induction calls generalizing c with
  | nil => cases h
  | cons call calls ih =>
      rw [visits] at h
      rcases List.mem_cons.1 h with rfl | hrest
      · exact ⟨[], List.prefix_append [call] calls, rfl⟩
      · split at hrest
        next c₁ r hfirst =>
          rcases ih hrest with ⟨before, hprefix, hplay⟩
          refine ⟨call :: before, List.prefix_cons_inj call |>.2 hprefix, ?_⟩
          rw [play, hfirst]
          exact hplay
        · cases hrest

/-- The rule for a context and what it has gone through, from a past on. -/
theorem play_history_from {J : Ctx X → List (Visit X) → Prop} {c c' : Ctx X} {calls : List Call}
    {past : List (Visit X)}
    (hstep : ∀ v ∈ m.visits c calls, ∀ past c' r, J v.1 past →
      m.step (some v.1) v.2 = .ok (some c', r) → J c' (past ++ [v]))
    (h : J c past) (hplay : m.play (some c) calls = .ok (some c')) :
    J c' (past ++ m.visits c calls) := by
  induction calls generalizing c past with
  | nil =>
      cases hplay
      rw [visits, List.append_nil]
      exact h
  | cons call calls ih =>
      rw [play] at hplay
      cases hfirst : m.step (some c) call with
      | error e =>
          rw [hfirst] at hplay
          cases hplay
      | ok x =>
          rcases x with ⟨p, r⟩
          rcases step_transition hfirst with ⟨c₁, rfl, _⟩
          rw [hfirst] at hplay
          rw [visits_cons hfirst] at hstep ⊢
          have hnext := hstep (c, call) List.mem_cons_self past c₁ r h hfirst
          have hrest := ih (fun v hv => hstep v (List.mem_cons_of_mem _ hv)) hnext hplay
          rw [List.append_assoc] at hrest
          exact hrest

/-- The rule for a context and what it has gone through. -/
theorem play_history {J : Ctx X → List (Visit X) → Prop} {c c' : Ctx X} {calls : List Call}
    (hstep : ∀ v ∈ m.visits c calls, ∀ past c' r, J v.1 past →
      m.step (some v.1) v.2 = .ok (some c', r) → J c' (past ++ [v]))
    (h : J c []) (hplay : m.play (some c) calls = .ok (some c')) : J c' (m.visits c calls) :=
  play_history_from hstep h hplay

theorem Reachable.played {c c' : Ctx X} {calls : List Call} (h : m.Reachable c)
    (hplay : m.play (some c) calls = .ok (some c')) : m.Reachable c' := by
  refine play_history (J := fun c _ => m.Reachable c) ?_ h hplay
  intro v _ _ c' r hreachable hstep
  exact hreachable.call hstep

/-- Calls that return whatever context they find make a run. -/
theorem play_returns {calls : List Call}
    (h : ∀ call ∈ calls, ∀ c : Ctx X, ∃ c' r, m.step (some c) call = .ok (some c', r)) (c : Ctx X) :
    ∃ c', m.play (some c) calls = .ok (some c') := by
  induction calls generalizing c with
  | nil => exact ⟨c, rfl⟩
  | cons call calls ih =>
      rcases h call List.mem_cons_self c with ⟨c₁, r, hfirst⟩
      rcases ih (fun call' hmem => h call' (List.mem_cons_of_mem _ hmem)) c₁ with ⟨c', hplay⟩
      refine ⟨c', ?_⟩
      rw [play, hfirst]
      exact hplay

end Module

/-! ## Events of a run -/

/-- The event that a call of `*_next_event` returns. -/
def returned : Visit X → List Event
  | (c, .nextEvent (some e)) =>
      match Ctx.nextEvent (some c) (some e) with
      | (r, _, some e') => if r = 1 then [e'] else []
      | _ => []
  | _ => []

/-- The events that the calls of `*_next_event` return, in order. -/
def delivered (past : List (Visit X)) : List Event :=
  past.flatMap returned

/-- The events that the steps try to queue, where `events` says it for each of them. -/
def made (events : Ctx X → Call → List Event) (past : List (Visit X)) : List Event :=
  past.flatMap fun v => events v.1 v.2

/-- The queue has room for what the step tries to queue. -/
def Roomy (events : Ctx X → Call → List Event) (v : Visit X) : Prop :=
  v.1.queued.length + (events v.1 v.2).length ≤ v.1.qsz

instance (events : Ctx X → Call → List Event) (v : Visit X) : Decidable (Roomy events v) :=
  inferInstanceAs (Decidable (_ ≤ _))

/-- A call tries to queue these events and no others. -/
structure Module.Queues (m : Module X) (events : Ctx X → Call → List Event) : Prop where
  plain : ∀ {c c' : Ctx X} {call : Call} {r : Result}, call.Plain →
    m.step (some c) call = .ok (some c', r) →
      c'.toQueueCtx = c.toQueueCtx.pushAll (events c call)
  next : ∀ (c : Ctx X) (e : Event), events c (.nextEvent (some e)) = []

theorem made_concat (events : Ctx X → Call → List Event) (past : List (Visit X)) (v : Visit X) :
    made events (past ++ [v]) = made events past ++ events v.1 v.2 := by
  rw [made, List.flatMap_append, List.flatMap_singleton, made]

theorem delivered_concat (past : List (Visit X)) (v : Visit X) :
    delivered (past ++ [v]) = delivered past ++ returned v := by
  rw [delivered, List.flatMap_append, List.flatMap_singleton, delivered]

theorem returned_of_plain (c : Ctx X) {call : Call} (h : call.Plain) :
    returned (c, call) = [] := by
  cases call with
  | nextEvent e =>
      cases e with
      | none => rfl
      | some e => exact absurd rfl (h.1 e)
  | feedInput d => rfl
  | feedInputWithTs d ts => rfl
  | process ts => rfl
  | getStats s => rfl
  | reset => rfl

/-- What `*_next_event` returns is what it takes out of the queue. -/
theorem returned_append_queued {c c' : Ctx X} {e : Event} {m : Module X} {r : Result}
    (h : m.step (some c) (.nextEvent (some e)) = .ok (some c', r)) :
    returned (c, .nextEvent (some e)) ++ c'.queued = c.queued := by
  cases hq : c.queued with
  | nil =>
      rw [Module.step, Ctx.nextEvent_of_pop (QueueCtx.pop_of_nil hq e)] at h
      cases h
      rw [returned, Ctx.nextEvent_of_pop (QueueCtx.pop_of_nil hq e)]
      exact hq
  | cons front rest =>
      rcases QueueCtx.pop_of_cons hq e with ⟨q, hpop, _, hrest, _⟩
      rw [Module.step, Ctx.nextEvent_of_pop hpop] at h
      cases h
      rw [returned, Ctx.nextEvent_of_pop hpop]
      exact congrArg (front :: ·) hrest

/-- In a run that always finds room in the queue nothing is lost: what was queued has been returned
or is still there, in order. -/
theorem delivered_append_queued {m : Module X} {events : Ctx X → Call → List Event}
    (hqueues : m.Queues events) {c c' : Ctx X} {calls : List Call} (hempty : c.queued = [])
    (hreset : .reset ∉ calls) (hroom : ∀ v ∈ m.visits c calls, Roomy events v)
    (hplay : m.play (some c) calls = .ok (some c')) :
    delivered (m.visits c calls) ++ c'.queued = made events (m.visits c calls) := by
  have hstart : delivered ([] : List (Visit X)) ++ c.queued = made events [] := by
    rw [hempty]
    rfl
  refine Module.play_history
    (J := fun c past => delivered past ++ c.queued = made events past) ?_ hstart hplay
  intro v hv past c₁ r h hstep
  rw [delivered_concat, made_concat, ← h]
  rcases v with ⟨c₀, call⟩
  rcases call.plain_or with hplain | ⟨e, rfl⟩ | rfl
  · -- The events go to the end of the queue, all of them.
    have hfits : (events c₀ call).length ≤ c₀.free := by
      have hle : c₀.queued.length + (events c₀ call).length ≤ c₀.qsz :=
        hroom (c₀, call) hv
      rw [QueueCtx.free]
      omega
    rw [returned_of_plain c₀ hplain, hqueues.plain hplain hstep, QueueCtx.queued_pushAll,
      List.take_of_length_le hfits, List.append_nil, List.append_assoc]
  · rw [hqueues.next, List.append_nil, List.append_assoc, returned_append_queued hstep]
  · exact absurd (Module.call_of_mem_visits hv) hreset

/-! ## Since the last reset -/

/-- Some history of operations has led to the context, and since it was created or last reset its
calls have tried to queue these events. -/
inductive Module.Since (m : Module X) (events : Ctx X → Call → List Event) :
    Ctx X → List Event → Prop
  | create (role : Role) (config : Option Config) :
      Since m events (m.createWithConfig role config) []
  | call {c c' : Ctx X} {call : Call} {r : Result} {es : List Event} : Since m events c es →
      call ≠ .reset → m.step (some c) call = .ok (some c', r) →
        Since m events c' (es ++ events c call)
  | reset {c c' : Ctx X} {r : Result} {es : List Event} : Since m events c es →
      m.step (some c) .reset = .ok (some c', r) → Since m events c' []
  | aside {c c' : Ctx X} {es : List Event} : Since m events c es → m.aside c c' →
      Since m events c' es

namespace Module

variable {m : Module X} {events : Ctx X → Call → List Event}

theorem Since.reachable {c : Ctx X} {es : List Event} (h : m.Since events c es) :
    m.Reachable c := by
  induction h with
  | create role config => exact .create role config
  | call _ _ hstep ih => exact ih.call hstep
  | reset _ hstep ih => exact ih.call hstep
  | aside _ hside ih => exact ih.aside hside

/-- Every context that a history leads to has a last reset, or none. -/
theorem Reachable.exists_since {c : Ctx X} (h : m.Reachable c)
    (events : Ctx X → Call → List Event) : ∃ es, m.Since events c es := by
  induction h with
  | create role config => exact ⟨[], .create role config⟩
  | @call c c' call r _ hstep ih =>
      rcases ih with ⟨es, hsince⟩
      by_cases hreset : call = .reset
      · subst hreset
        exact ⟨[], hsince.reset hstep⟩
      · exact ⟨es ++ events c call, hsince.call hreset hstep⟩
  | aside _ hside ih =>
      rcases ih with ⟨es, hsince⟩
      exact ⟨es, hsince.aside hside⟩

/-- A run without a reset goes on with what it makes. -/
theorem Since.played {c c' : Ctx X} {es : List Event} {calls : List Call} (h : m.Since events c es)
    (hreset : .reset ∉ calls) (hplay : m.play (some c) calls = .ok (some c')) :
    m.Since events c' (es ++ made events (m.visits c calls)) := by
  have hstart : m.Since events c (es ++ made events []) := by
    rwa [made, List.flatMap_nil, List.append_nil]
  refine play_history (J := fun c past => m.Since events c (es ++ made events past)) ?_ hstart hplay
  rintro ⟨c₀, call⟩ hv past c₁ r hpast hstep
  rw [made_concat, ← List.append_assoc]
  exact hpast.call (fun hcall => hreset (hcall ▸ call_of_mem_visits hv)) hstep

/-- The rule for a context and what has been made since its last reset. -/
theorem Since.invariant {J : Ctx X → List Event → Prop}
    (hinit : ∀ role r sendTs own s, J (m.qinit role r sendTs own s) [])
    (hcall : ∀ c es call c' r, m.Reachable c → J c es → call ≠ .reset →
      m.step (some c) call = .ok (some c', r) → J c' (es ++ events c call))
    (haside : ∀ c c' es, J c es → m.aside c c' → J c' es) {c : Ctx X} {es : List Event}
    (h : m.Since events c es) : J c es := by
  induction h with
  | create role config => exact hinit role _ 0 _ _
  | call hsince hne hstep ih => exact hcall _ _ _ _ _ hsince.reachable ih hne hstep
  | reset hsince hstep ih =>
      cases hstep
      exact hinit _ _ _ _ _
  | aside _ hside ih => exact haside _ _ _ ih hside

/-- What holds of the events of every call holds of all events since the last reset. -/
theorem Since.forall_mem {Good : Event → Prop}
    (hcall : ∀ c call, m.Reachable c → ∀ e ∈ events c call, Good e) {c : Ctx X} {es : List Event}
    (h : m.Since events c es) : ∀ e ∈ es, Good e := by
  induction h with
  | create role config =>
      intro e he
      cases he
  | call hsince _ _ ih => exact List.forall_mem_append.2 ⟨ih, hcall _ _ hsince.reachable⟩
  | reset _ _ _ =>
      intro e he
      cases he
  | aside _ _ ih => exact ih

end Module
end Probe
end Netdiag
