import Netdiag.Probe.Averages

/-!
# Image — which events a probe context can give

A context is a requester or a responder, and its role decides which events its callers can ever be
given.  For each module `Shape` lists them: what a requester measures, and what a responder says of
a probe that nobody answered.  Every event that is returned in a run has its shape, and every
event of that shape is returned in some run (`probe_returned_iff`).

Requesters do not time a probe, so their latencies are constants.
-/

namespace Netdiag
namespace Probe

open Lib

variable {X : Type} {m : Module X}

/-! ## Returned events -/

/-- In some run, `*_next_event` returns the event to a caller with a context of this role. -/
def Module.Gives (m : Module X) (role : Role) (ev : Event) : Prop :=
  ∃ c c' e, m.Reachable c ∧ c.role = role ∧
    m.step (some c) (.nextEvent (some e)) = .ok (some c', .event 1 (some ev))

namespace Module

/-- Whatever is queued is given out, after all that stands in front of it. -/
theorem Gives.of_mem_queued {c : Ctx X} {ev : Event} (h : m.Reachable c) (hev : ev ∈ c.queued) :
    m.Gives c.role ev := by
  induction hq : c.queued generalizing c with
  | nil =>
      rw [hq] at hev
      cases hev
  | cons front rest ih =>
      rcases QueueCtx.pop_of_cons hq {} with ⟨q, hpop, hrole, hrest, _⟩
      have hstep : m.step (some c) (.nextEvent (some {})) =
          .ok (some { c with toQueueCtx := q }, .event 1 (some front)) := by
        rw [step, Ctx.nextEvent_of_pop hpop]
        rfl
      rw [hq] at hev
      rcases List.mem_cons.1 hev with rfl | hlater
      · exact ⟨c, _, {}, h, rfl, hstep⟩
      · have hnext := ih (c := { c with toQueueCtx := q }) (h.call hstep) (hrest ▸ hlater) hrest
        exact hrole ▸ hnext

theorem Gives.exists_mem_queued {role : Role} {ev : Event} (h : m.Gives role ev) :
    ∃ c, m.Reachable c ∧ c.role = role ∧ ev ∈ c.queued := by
  rcases h with ⟨c, c', e, hreach, hrole, hstep⟩
  refine ⟨c, hreach, hrole, ?_⟩
  cases hq : c.queued with
  | nil =>
      rw [step, Ctx.nextEvent_of_pop (QueueCtx.pop_of_nil hq e)] at hstep
      cases hstep
  | cons front rest =>
      rcases QueueCtx.pop_of_cons hq e with ⟨q, hpop, _⟩
      rw [step, Ctx.nextEvent_of_pop hpop] at hstep
      cases hstep
      exact List.mem_cons_self

/-- What every call makes is all that a context ever holds. -/
theorem forall_mem_queued {events : Ctx X → Call → List Event} {Good : Role → Event → Prop}
    (hqueues : m.Queues events)
    (hevents : ∀ c call, m.Reachable c → ∀ e ∈ events c call, Good c.role e)
    (haside : ∀ c c', m.aside c c' → c'.toQueueCtx = c.toQueueCtx) {c : Ctx X}
    (h : m.Reachable c) : ∀ e ∈ c.queued, Good c.role e := by
  induction h with
  | create role config =>
      intro e he
      have hempty : (m.createWithConfig role config).queued = [] :=
        QueueCtx.queued_init _ _ _ _ _
      rw [hempty] at he
      cases he
  | @call c c' call r hreach hstep ih =>
      rcases call.plain_or with hplain | ⟨e₀, rfl⟩ | rfl
      · -- A call puts its own events behind those that wait already.
        have hqueue := hqueues.plain hplain hstep
        have hrole : c'.role = c.role := by
          rw [hqueue, QueueCtx.role_pushAll]
        intro e he
        rw [hqueue, QueueCtx.queued_pushAll] at he
        rw [hrole]
        rcases List.mem_append.1 he with he | he
        · exact ih e he
        · exact hevents c call hreach e (List.mem_of_mem_take he)
      · -- What is still waiting after an event is taken was waiting before.
        have hqueue := returned_append_queued hstep
        have hrole : c'.role = c.role := by
          rcases hpop : c.pop e₀ with ⟨r₀, q, e'⟩
          rw [step, Ctx.nextEvent_of_pop hpop] at hstep
          -- A reset starts with an empty queue.
          cases hstep
          exact role_of_pop hpop
        intro e he
        rw [hrole]
        exact ih e (hqueue ▸ List.mem_append_right _ he)
      · cases hstep
        intro e he
        have hempty : (m.qinit c.role c.ring.1 c.sendTs c.own c.qsz).queued = [] :=
          QueueCtx.queued_init _ _ _ _ _
        rw [hempty] at he
        cases he
  | @aside c c' _ hside ih =>
      rw [haside c c' hside]
      exact ih

/-- The rule for one direction: an event that is returned has the shape of what calls make. -/
theorem Gives.good {events : Ctx X → Call → List Event} {Good : Role → Event → Prop}
    (hqueues : m.Queues events)
    (hevents : ∀ c call, m.Reachable c → ∀ e ∈ events c call, Good c.role e)
    (haside : ∀ c c', m.aside c c' → c'.toQueueCtx = c.toQueueCtx) {role : Role} {ev : Event}
    (h : m.Gives role ev) : Good role ev := by
  rcases h.exists_mem_queued with ⟨c, hreach, hrole, hmem⟩
  rw [← hrole]
  exact forall_mem_queued hqueues hevents haside hreach ev hmem

theorem Reachable.fed {c c' : Ctx X} {d : List UInt8} (h : m.Reachable c) (ts : UInt64)
    (hlen : m.minLen ≤ d.length) (hbody : m.body c d ts = .ok c') : m.Reachable c' :=
  h.call (step_of_body (.inl rfl) hlen hbody)

theorem Reachable.ticked {c : Ctx X} (h : m.Reachable c) (ts : UInt64) :
    m.Reachable (m.tick c ts) :=
  h.call (show m.step (some c) (.process ts) = .ok (some (m.tick c ts), .code 0) from rfl)

theorem Reachable.created (role : Role) : m.Reachable (m.create role) :=
  .create role none

/-- The rule for the other direction: the first event in the queue of a new context. -/
theorem Gives.of_first {role : Role} {c : Ctx X} {ev : Event} (rest : List Event)
    (h : m.Reachable c)
    (hqueue : c.toQueueCtx = (m.create role).toQueueCtx.pushAll (ev :: rest)) :
    m.Gives role ev := by
  have hrole : c.role = role := by
    rw [hqueue, QueueCtx.role_pushAll]
    rfl
  have hempty : (m.create role).queued = [] := QueueCtx.queued_init _ _ _ _ _
  have hroom : (m.create role).free = 7 + 1 := by
    rw [QueueCtx.free, hempty]
    rfl
  have hmem : ev ∈ c.queued := by
    rw [hqueue, QueueCtx.queued_pushAll, hroom, List.take_succ_cons]
    exact List.mem_append_right _ List.mem_cons_self
  exact hrole ▸ Gives.of_mem_queued h hmem

end Module

/-- One millisecond after its time is up, a request expires. -/
theorem expired_request (c : Ctx X) (own : X) :
    ({ c.request 1 with own := own } : Ctx X).Expired 1002 :=
  ⟨rfl, show (1 : UInt64) ≠ 0 by decide, show (1002 : UInt64) > 1 + 1000 by decide⟩

theorem mem_expiry {c : Ctx X} {ev e : Event} {ts : UInt64}
    (h : e ∈ (c.expiry ev ts).toList) : c.Expired ts ∧ e = ev := by
  rw [Ctx.expiry] at h
  split_ifs at h with hexpired
  · exact ⟨hexpired, List.mem_singleton.1 h⟩
  · cases h

/-- A probe that expires has a time, which no requester of these modules keeps. -/
theorem Ctx.Expired.responder {c : Ctx X} {ts : UInt64} (h : c.Expired ts)
    (hzero : c.role = .requester → c.sendTs = 0) : c.role = .responder := by
  cases hrole : c.role with
  | requester => exact absurd (hzero hrole) h.2.1
  | responder => rfl

/-- Without a time of a probe there is nothing to measure from. -/
theorem Ctx.latency_of_untimed {c : Ctx X} (h : c.sendTs = 0) (ts : UInt64) :
    c.latency ts = 5 :=
  if_neg fun hboth => hboth.1 h

theorem Ctx.latency_stamp_cases (c : Ctx X) (ts : UInt64) :
    (c.stamp ts).latency ts = 0 ∨ (c.stamp ts).latency ts = 5 := by
  rw [latency_stamp]
  by_cases hts : ts ≠ 0
  · exact .inl (if_pos hts)
  · exact .inr (if_neg hts)

end Probe

open Lib
open Probe (Role Event Call Module)

/-! ## Ping -/

namespace Ping

/-- A requester reports replies, all with the same latency, and a responder timeouts. -/
def Shape : Role → Event → Prop
  | .requester, ev =>
      ∃ seq : UInt16, ev = { type := .pingReply, seq := seq.toUInt32, latencyMs := 5 }
  | .responder, ev =>
      ∃ seq : UInt16, ev = { type := .pingTimeout, seq := seq.toUInt32, reason := "timeout" }

theorem exists_lastSeq {c : Ctx} (h : ping.Reachable c) :
    ∃ seq : UInt16, c.own.lastSeq = seq.toUInt32 := by
  refine h.invariant (m := ping) (I := fun c : Ctx => ∃ seq : UInt16, c.own.lastSeq = seq.toUInt32)
    (fun _ _ _ => ⟨0, rfl⟩) ?_ ?_ (fun _ _ hI _ => hI) (fun _ _ _ hI => hI)
    (fun _ _ _ (hside : False) => hside.elim)
  · intro c d ts hI
    refine OkAll.bind _ fun type => ?_
    split_ifs with hreply hrequest
    · exact OkAll.bind _ fun seq => .ok hI
    · exact OkAll.bind _ fun seq => .ok ⟨seq, rfl⟩
    · exact .ok hI
  · intro c ts hI
    show ∃ seq : UInt16, (processBody c ts).own.lastSeq = seq.toUInt32
    rw [processBody]
    split_ifs <;> exact hI

theorem shape_of_mem {c : Ctx} {call : Call} (h : ping.Reachable c) :
    ∀ e ∈ events c call, Shape c.role e := by
  refine Call.forall_mem_events ?_ ?_ call
  · intro d ts e he
    rw [packetEvent] at he
    split_ifs at he with hreply
    · rw [List.mem_singleton.1 he, hreply.2.2,
        Probe.Ctx.latency_of_untimed (sendTs_of_requester h hreply.2.2)]
      exact ⟨be16At d 6, rfl⟩
    · cases he
  · intro ts e he
    rcases Probe.mem_expiry he with ⟨hexpired, rfl⟩
    rcases exists_lastSeq h with ⟨seq, hseq⟩
    rw [hexpired.responder (sendTs_of_requester h), timeoutEvent, hseq]
    exact ⟨seq, rfl⟩

/-- An echo message. -/
def echo (type : UInt8) (seq : UInt16) : List UInt8 :=
  [type, 0, 0, 0, 0, 0] ++ wr16Be seq

theorem be16At_echo (type : UInt8) (seq : UInt16) : be16At (echo type seq) 6 = seq :=
  be16_wr16Be seq

theorem gives_of_shape {role : Role} {ev : Event} (h : Shape role ev) : ping.Gives role ev := by
  cases role with
  | requester =>
      rcases h with ⟨seq, rfl⟩
      have hreach := (Module.Reachable.created (m := ping) .requester).fed
        (d := echo 0 seq) 0 le_rfl (feedBody_eq le_rfl _ _)
      refine Module.Gives.of_first [] hreach ?_
      rw [fed, if_pos ⟨⟨le_rfl, .inl rfl⟩, rfl⟩, be16At_echo]
      rfl
  | responder =>
      rcases h with ⟨seq, rfl⟩
      have hfed : feedBody (ping.create .responder) (echo 8 seq) 1 =
          .ok { (ping.create .responder).request 1 with own := ⟨seq.toUInt32⟩ } := by
        rw [feedBody_eq le_rfl, fed, if_neg (fun h => absurd h.2 (by decide)),
          if_pos ⟨⟨le_rfl, .inl rfl⟩, rfl⟩, be16At_echo]
      have hreach := (Module.Reachable.created (m := ping) .responder).fed _ le_rfl hfed
      have htick : processBody _ 1002 = _ :=
        if_pos (Probe.expired_request (ping.create .responder) ⟨seq.toUInt32⟩)
      refine Module.Gives.of_first [] (hreach.ticked 1002) ?_
      exact congrArg Probe.Ctx.toQueueCtx htick

theorem shape_of_gives {role : Role} {ev : Event} (h : ping.Gives role ev) : Shape role ev :=
  h.good booked.queues (fun _ _ hc => shape_of_mem hc) fun _ _ (hside : False) => hside.elim

end Ping

/-! ## Arping -/

namespace Arping

/-- A requester reports the MAC of an answer, and a responder a timeout under another name. -/
def Shape : Role → Event → Prop
  | .requester, ev => ∃ mac, ev = { type := .arpReply, srcMac := mac, latencyMs := 5 }
  | .responder, ev => ev = timeoutEvent

theorem shape_of_mem {c : Ctx} {call : Call} (h : arping.Reachable c) :
    ∀ e ∈ events c call, Shape c.role e := by
  refine Call.forall_mem_events ?_ ?_ call
  · intro d ts e he
    rw [packetEvent, Option.mem_toList, Option.or_eq_some_iff] at he
    rcases he with harp | ⟨_, hndp⟩
    · rcases Option.ite_none_right_eq_some.1 harp with ⟨hreply, hev⟩
      cases hev
      rw [hreply.2.2.2.2, Probe.Ctx.latency_of_untimed (sendTs_of_requester h hreply.2.2.2.2)]
      exact ⟨_, rfl⟩
    · rcases Option.ite_none_right_eq_some.1 hndp with ⟨hreply, hev⟩
      cases hev
      rw [hreply.2.2.2.2, Probe.Ctx.latency_of_untimed (sendTs_of_requester h hreply.2.2.2.2)]
      exact ⟨_, rfl⟩
  · intro ts e he
    rcases Probe.mem_expiry he with ⟨hexpired, rfl⟩
    rw [hexpired.responder (sendTs_of_requester h)]
    exact rfl

/-- An ARP frame up to the address of the sender. -/
def arpFrame (op : UInt8) (mac : Vector UInt8 6) (ip : List UInt8) : List UInt8 :=
  [0, 0, 0, 0, 0, 0, 0, 0, 0, 0, 0, 0, 0x08, 0x06, 0, 0, 0, 0, 0, 0, 0, op] ++ mac.toList ++ ip

theorem length_arpFrame (op : UInt8) (mac : Vector UInt8 6) (ip : List UInt8) :
    (arpFrame op mac ip).length = 28 + ip.length := by
  rw [arpFrame, List.length_append, List.length_append, Vector.length_toList]
  rfl

theorem bytesOf_arpFrame (op : UInt8) (mac : Vector UInt8 6) (ip : List UInt8) :
    bytesOf 6 ((arpFrame op mac ip).drop 22) = mac := by
  apply Vector.ext
  intro i hi
  have hlen : i < mac.toList.length := by rwa [Vector.length_toList]
  have hdrop : (arpFrame op mac ip).drop 22 = mac.toList ++ ip := rfl
  rw [bytesOf, Vector.getElem_ofFn, hdrop, List.getD_append _ _ _ _ hlen,
    List.getD_eq_getElem _ _ hlen, Vector.getElem_toList]

theorem gives_of_shape {role : Role} {ev : Event} (h : Shape role ev) : arping.Gives role ev := by
  cases role with
  | requester =>
      rcases h with ⟨mac, rfl⟩
      have hlen : (arpFrame 2 mac []).length = 28 := length_arpFrame 2 mac []
      have harp : IsArp 2 (arpFrame 2 mac []) := ⟨by omega, rfl, rfl, rfl⟩
      have hin : InBounds (arping.create .requester) (arpFrame 2 mac []) :=
        fun _ => ⟨fun _ => by omega, fun _ => by omega⟩
      have hmin : 14 ≤ (arpFrame 2 mac []).length := by omega
      have hreach := (Module.Reachable.created (m := arping) .requester).fed _ hmin
        (feedBody_eq hmin hin 0)
      refine Module.Gives.of_first [] hreach ?_
      rw [fed, if_pos ⟨harp, rfl⟩, bytesOf_arpFrame]
      rfl
  | responder =>
      cases h
      have hreach := (Module.Reachable.created (m := arping) .responder).fed
        (d := arpRequest) 1 (by decide) (feedBody_eq (by decide) (by decide) _)
      have htick : processBody _ 1002 = _ :=
        if_pos (Probe.expired_request (arping.create .responder) ())
      refine Module.Gives.of_first [] (hreach.ticked 1002) ?_
      exact congrArg Probe.Ctx.toQueueCtx htick

theorem shape_of_gives {role : Role} {ev : Event} (h : arping.Gives role ev) : Shape role ev :=
  h.good booked.queues (fun _ _ hc => shape_of_mem hc) fun _ _ (hside : False) => hside.elim

end Arping

/-! ## Arprecon -/

namespace Arprecon

/-- A requester reports the MAC of an answer, and answers that contradict each other; a responder
reports timeouts. -/
def Shape : Role → Event → Prop
  | .requester, ev =>
      (∃ mac, ev = { type := .arpReply, srcMac := mac, latencyMs := 5 }) ∨ ev = spoofEvent
  | .responder, ev => ev = timeoutEvent

theorem shape_of_mem {c : Ctx} {call : Call} (h : arprecon.Reachable c) :
    ∀ e ∈ events c call, Shape c.role e := by
  refine Call.forall_mem_events ?_ ?_ call
  · intro d ts e he
    rw [packetEvents] at he
    split_ifs at he with hreply
    · rw [hreply.2]
      rcases List.mem_cons.1 he with rfl | hspoof
      · rw [Probe.Ctx.latency_of_untimed (sendTs_of_requester h hreply.2)]
        exact .inl ⟨_, rfl⟩
      · exact .inr (List.eq_of_mem_replicate hspoof)
    · cases he
  · intro ts e he
    rcases Probe.mem_expiry he with ⟨hexpired, rfl⟩
    rw [hexpired.responder (sendTs_of_requester h)]
    exact rfl

theorem gives_reply (mac : Vector UInt8 6) :
    arprecon.Gives .requester { type := .arpReply, srcMac := mac, latencyMs := 5 } := by
  have hlen : (Arping.arpFrame 2 mac [0, 0, 0, 0]).length = 32 := Arping.length_arpFrame 2 mac _
  have hreply : IsReply (Arping.arpFrame 2 mac [0, 0, 0, 0]) :=
    ⟨by omega, rfl, rfl, show be16 0 2 = 2 by decide⟩
  have hbody := feedBody_eq (c := arprecon.create .requester)
    (fun _ _ => ⟨by omega, fun _ => by omega⟩) (d := Arping.arpFrame 2 mac [0, 0, 0, 0]) 0
  have hmin : 14 ≤ (Arping.arpFrame 2 mac [0, 0, 0, 0]).length := by omega
  have hqueue := (posting_packet hbody).books.queue
  rw [packetEvents, if_pos ⟨hreply, rfl⟩, replyEvent, announcement,
    Arping.bytesOf_arpFrame] at hqueue
  exact Module.Gives.of_first _
    ((Module.Reachable.created (m := arprecon) _).fed _ hmin hbody) hqueue

/-- Two answers for one address. -/
theorem gives_spoofEvent : arprecon.Gives .requester spoofEvent := by
  have hplay : ∃ c, arprecon.play (some (arprecon.create .requester))
      [.feedInput (some (replyFrom 0)), .feedInput (some (replyFrom 1))] = .ok (some c) ∧
      c.role = .requester ∧ spoofEvent ∈ c.queued := ⟨_, rfl, rfl, by decide⟩
  rcases hplay with ⟨c, hplay, hrole, hmem⟩
  exact hrole ▸ Module.Gives.of_mem_queued
    ((Module.Reachable.created (m := arprecon) .requester).played hplay) hmem

theorem gives_of_shape {role : Role} {ev : Event} (h : Shape role ev) :
    arprecon.Gives role ev := by
  cases role with
  | requester =>
      rcases h with ⟨mac, rfl⟩ | rfl
      · exact gives_reply mac
      · exact gives_spoofEvent
  | responder =>
      cases h
      have hreach := (Module.Reachable.created (m := arprecon) .responder).fed
        (d := Arping.arpRequest) 1 (by decide)
        (feedBody_eq (c := arprecon.create .responder) (d := Arping.arpRequest) (by decide) 1)
      have htick : processBody _ 1002 = _ :=
        if_pos (Probe.expired_request (arprecon.create .responder) arprecon.calloc)
      refine Module.Gives.of_first [] (hreach.ticked 1002) ?_
      exact congrArg Probe.Ctx.toQueueCtx htick

theorem shape_of_gives {role : Role} {ev : Event} (h : arprecon.Gives role ev) : Shape role ev :=
  h.good booked.queues (fun _ _ hc => shape_of_mem hc) fun _ _ (hside : False) => hside.elim

end Arprecon

/-! ## Traceroute -/

namespace Traceroute

/-- A requester does not know which probe was answered, and its latencies are those of a packet
with its own time; a responder reports timeouts. -/
def Shape : Role → Event → Prop
  | .requester, ev =>
      ∃ lat, (lat = 0 ∨ lat = 5) ∧ ev = { type := .tracerouteHop, latencyMs := lat }
  | .responder, ev => ∃ seq : UInt16,
      ev = { type := .tracerouteHop, seq := seq.toUInt32, reason := "traceroute timeout" }

/-- Only a responder waits, and the number that it keeps has 16 bits. -/
theorem waiting_and_lastSeq {c : Ctx} (h : traceroute.Reachable c) :
    (c.waiting = true → c.role = .responder) ∧ ∃ seq : UInt16, c.own.lastSeq = seq.toUInt32 := by
  refine h.invariant (m := traceroute) (I := fun c : Ctx => (c.waiting = true →
      c.role = .responder) ∧ ∃ seq : UInt16, c.own.lastSeq = seq.toUInt32)
    (fun _ _ _ => ⟨fun hw => (by cases hw), 0, rfl⟩) ?_ ?_
    (fun c q hI hq => ⟨fun hw => hq ▸ hI.1 hw, hI.2⟩)
    (fun _ _ _ hI => ⟨fun hw => (by cases hw), hI.2⟩) ?_
  · intro c d ts hI
    -- A packet: a reply ends the waiting, and a request is kept by a responder with 16 bits.
    refine OkAll.bind _ fun icmpType => ?_
    split_ifs with hreply hrequest
    · refine .ok ⟨fun hw => (by cases hw), ?_⟩
      rw [lastSeq_recordHop]
      exact hI.2
    · exact OkAll.bind _ fun seq => .ok ⟨fun _ => hrequest.2, seq, rfl⟩
    · exact .ok hI
  · intro c ts hI
    -- The clock ends the waiting and does not change the number.
    show ((processBody c ts).waiting = true → (processBody c ts).role = .responder) ∧
      ∃ seq : UInt16, (processBody c ts).own.lastSeq = seq.toUInt32
    rw [processBody]
    split_ifs with hexpired
    · refine ⟨fun hw => (by cases hw), ?_⟩
      rw [lastSeq_recordHop]
      exact hI.2
    · exact hI
  · rintro c c' hI ⟨hop, success, latencyMs, hrecord⟩
    -- A hop that is recorded aside changes neither.
    rw [← Option.some.inj hrecord]
    split_ifs with hno
    · exact hI
    · refine ⟨hI.1, ?_⟩
      rw [lastSeq_recordHop]
      exact hI.2

theorem shape_of_mem {c : Ctx} {call : Call} (h : traceroute.Reachable c) :
    ∀ e ∈ events c call, Shape c.role e := by
  rcases waiting_and_lastSeq h with ⟨hwaiting, seq, hseq⟩
  refine Call.forall_mem_events ?_ ?_ call
  · intro d ts e he
    rw [packetEvent] at he
    split_ifs at he with hreply
    · rw [List.mem_singleton.1 he, hreply.2.2, lastSeq_of_requester h hreply.2.2]
      exact ⟨_, Probe.Ctx.latency_stamp_cases c ts, rfl⟩
    · cases he
  · intro ts e he
    rcases Probe.mem_expiry he with ⟨hexpired, rfl⟩
    rw [hwaiting hexpired.1, timeoutEvent, hseq]
    exact ⟨seq, rfl⟩

/-- A packet with an ICMP message behind a header of 20 bytes. -/
def icmpPacket (type : UInt8) (seq : UInt16) : List UInt8 :=
  [0, 0, 0, 0, 0, 0, 0, 0, 0, 0, 0, 0, 0, 0, 0, 0, 0, 0, 0, 0, type, 0, 0, 0, 0, 0, 0, 0] ++
    wr16Be seq

theorem be16At_icmpPacket (type : UInt8) (seq : UInt16) : be16At (icmpPacket type seq) 28 = seq :=
  be16_wr16Be seq

theorem inBounds_icmpPacket (c : Ctx) (type : UInt8) (seq : UInt16) :
    InBounds c (icmpPacket type seq) :=
  ⟨show 30 ≠ 20 by decide, fun _ _ => le_rfl⟩

theorem gives_hop (ts : UInt64) : traceroute.Gives .requester
    { type := .tracerouteHop
      latencyMs := ((traceroute.create .requester).stamp ts).latency ts } := by
  have hmin : 20 ≤ (icmpPacket 11 0).length := show 20 ≤ 30 by decide
  have hreach := (Module.Reachable.created (m := traceroute) .requester).fed _ hmin
    (feedBody_eq hmin (inBounds_icmpPacket _ 11 0) ts)
  refine Module.Gives.of_first [] hreach ?_
  rw [fed, if_pos ⟨.inl rfl, rfl⟩]
  rfl

theorem gives_of_shape {role : Role} {ev : Event} (h : Shape role ev) :
    traceroute.Gives role ev := by
  have hmin : ∀ type seq, 20 ≤ (icmpPacket type seq).length :=
    fun _ _ => show 20 ≤ 30 by decide
  cases role with
  | requester =>
      rcases h with ⟨lat, rfl | rfl, rfl⟩
      · exact gives_hop 1
      · exact gives_hop 0
  | responder =>
      rcases h with ⟨seq, rfl⟩
      have hfed : feedBody (traceroute.create .responder) (icmpPacket 8 seq) 1 = .ok
          { ((traceroute.create .responder).stamp 1).request 1 with
            own := { traceroute.calloc with lastSeq := seq.toUInt32 } } := by
        rw [feedBody_eq (hmin 8 seq) (inBounds_icmpPacket _ 8 seq), fed,
          if_neg (fun h => absurd h.2 (by decide)), if_pos ⟨rfl, rfl⟩, be16At_icmpPacket]
        rfl
      have hreach := (Module.Reachable.created (m := traceroute) .responder).fed _ (hmin 8 seq) hfed
      have htick : processBody _ 1002 = _ := if_pos (Probe.expired_request
        ((traceroute.create .responder).stamp 1)
        { traceroute.calloc with lastSeq := seq.toUInt32 })
      refine Module.Gives.of_first [] (hreach.ticked 1002) ?_
      exact congrArg Probe.Ctx.toQueueCtx htick

theorem shape_of_gives {role : Role} {ev : Event} (h : traceroute.Gives role ev) :
    Shape role ev := by
  refine h.good booked.queues (fun _ _ hc => shape_of_mem hc) ?_
  -- Counting for a hop does not touch the queue.
  rintro c c' ⟨hop, success, latencyMs, hrecord⟩
  rw [← Option.some.inj hrecord]
  split_ifs <;> rfl

end Traceroute

/-! ## Dnsdiag -/

namespace Dnsdiag

/-- A requester reports error codes and responses, without their identifiers; a responder reports
nothing. -/
def Shape : Role → Event → Prop
  | .requester, ev =>
      (∃ rcode : UInt16, 0 < rcode ∧ rcode < 16 ∧
        ev = { type := .faultDetected, reason := s!"DNS rcode={rcode}" }) ∨
      ∃ lat, (lat = 0 ∨ lat = 5) ∧ ev = { type := .dnsReply, latencyMs := lat }
  | .responder, _ => False

theorem rcode_lt (flags : UInt16) : flags &&& 0x000F < 16 := by
  rw [UInt16.lt_iff_toNat_lt, UInt16.toNat_and]
  exact Nat.and_lt_two_pow _ (by decide : (0x000F : UInt16).toNat < 2 ^ 4)

theorem shape_of_mem {c : Ctx} {call : Call} (h : dnsdiag.Reachable c) :
    ∀ e ∈ events c call, Shape c.role e := by
  refine Call.forall_mem_events ?_ (fun ts e he => by cases he) call
  intro d ts e he
  rw [packetEvent] at he
  split_ifs at he with hreply hfault hresponse
  · rw [List.mem_singleton.1 he, hreply.2, faultEvent, lastSeq_of_requester h hreply.2]
    exact .inl ⟨_, UInt16.pos_iff_ne_zero.2 hfault, rcode_lt _, rfl⟩
  · rw [List.mem_singleton.1 he, hreply.2, lastSeq_of_requester h hreply.2]
    exact .inr ⟨_, Probe.Ctx.latency_stamp_cases c ts, rfl⟩
  · cases he
  · cases he

/-- The header of a message, up to its flags. -/
def message (flags : UInt16) : List UInt8 :=
  [0, 0] ++ wr16Be flags ++ [0, 0, 0, 0, 0, 0, 0, 0]

theorem be16At_message (flags : UInt16) : be16At (message flags) 2 = flags :=
  be16_wr16Be flags

theorem gives_packetEvent (flags : UInt16) (ts : UInt64) {ev : Event}
    (h : packetEvent (dnsdiag.create .requester) (message flags) ts = some ev) :
    dnsdiag.Gives .requester ev := by
  have hmin : 12 ≤ (message flags).length := le_rfl
  have hbody := feedBody_eq hmin (dnsdiag.create .requester) ts
  have hqueue := (posting_packet hmin hbody).books.queue
  rw [h] at hqueue
  exact Module.Gives.of_first _
    ((Module.Reachable.created (m := dnsdiag) _).fed _ hmin hbody) hqueue

theorem gives_of_shape {role : Role} {ev : Event} (h : Shape role ev) : dnsdiag.Gives role ev := by
  cases role with
  | requester =>
      rcases h with ⟨rcode, hpos, hlt, rfl⟩ | ⟨lat, hlat, rfl⟩
      · have hsame : rcode &&& 0x000F = rcode := by
          apply UInt16.toNat_inj.1
          rw [UInt16.toNat_and]
          exact Nat.and_two_pow_sub_one_of_lt_two_pow (n := 4) (UInt16.lt_iff_toNat_lt.1 hlt)
        refine gives_packetEvent rcode 0 ?_
        rw [packetEvent, be16At_message, hsame, if_pos ⟨le_rfl, rfl⟩,
          if_pos (UInt16.pos_iff_ne_zero.1 hpos)]
        rfl
      · rcases hlat with rfl | rfl
        · exact gives_packetEvent 0x8000 1 rfl
        · exact gives_packetEvent 0x8000 0 rfl
  | responder => exact h.elim

theorem shape_of_gives {role : Role} {ev : Event} (h : dnsdiag.Gives role ev) : Shape role ev :=
  h.good booked.queues (fun _ _ hc => shape_of_mem hc) fun _ _ (hside : False) => hside.elim

end Dnsdiag

open Ping (ping)
open Arping (arping)
open Traceroute (traceroute)
open Dnsdiag (dnsdiag)
open Arprecon (arprecon)

/-- The events that callers of the five modules can be given, for each role, are those of the
module's shape and no others. -/
theorem probe_returned_iff (role : Role) (ev : Event) :
    (ping.Gives role ev ↔ Ping.Shape role ev) ∧
    (arping.Gives role ev ↔ Arping.Shape role ev) ∧
    (arprecon.Gives role ev ↔ Arprecon.Shape role ev) ∧
    (traceroute.Gives role ev ↔ Traceroute.Shape role ev) ∧
    (dnsdiag.Gives role ev ↔ Dnsdiag.Shape role ev) := by
  exact ⟨⟨Ping.shape_of_gives, Ping.gives_of_shape⟩,
    ⟨Arping.shape_of_gives, Arping.gives_of_shape⟩,
    ⟨Arprecon.shape_of_gives, Arprecon.gives_of_shape⟩,
    ⟨Traceroute.shape_of_gives, Traceroute.gives_of_shape⟩,
    ⟨Dnsdiag.shape_of_gives, Dnsdiag.gives_of_shape⟩⟩

end Netdiag
