import Netdiag.Nfct.Feed
import Netdiag.Nfct.Fields

/-!
# Sources — the message that an event was decoded from

What a conntrack message has to carry for its event to name a connection, and how the events that
a caller reads after feeding a buffer correspond to the messages of the buffer.

The parser does not look at the subsystem byte of a message type.  A message of another subsystem
becomes a connection event as soon as its attributes read like a tuple (`onlyConntrack_iff`).
-/

namespace Netdiag
namespace Nfct

open Lib

/-! ## What a message carries -/

/-- The subsystem byte of the message type. -/
def subsys (f : List UInt8) : UInt8 :=
  ((nlmsgType f >>> 8) &&& 0xff).toUInt8

/-- `NFNL_SUBSYS_CTNETLINK`. -/
abbrev nfnlSubsysCtnetlink : UInt8 := 1

/-- The low byte of the message type is `IPCTNL_MSG_CT_DELETE`. -/
def Deletes (f : List UInt8) : Prop :=
  (nlmsgType f &&& 0xff).toUInt8 = ipctnlMsgCtDelete

/-- The bytes of the tuple that counts, none if there is no such tuple. -/
def tupleNest (type : UInt16) (f : List UInt8) : List UInt8 :=
  (lastAttr type 0 (msgAttrs f)).getD []

abbrev origNest (f : List UInt8) : List UInt8 := tupleNest ctaTupleOrig f

abbrev replyNest (f : List UInt8) : List UInt8 := tupleNest ctaTupleReply f

/-- The attributes of the address nests of a tuple. -/
def addrs (xs : List UInt8) : List Attr :=
  nested ctaTupleIp (attrs xs)

def Carries4 (xs : List UInt8) : Prop :=
  ∃ a ∈ addrs xs, (a.type = ctaIpV4Src ∨ a.type = ctaIpV4Dst) ∧ 4 ≤ a.payload.length

def Carries6 (xs : List UInt8) : Prop :=
  ∃ a ∈ addrs xs, (a.type = ctaIpV6Src ∨ a.type = ctaIpV6Dst) ∧ 16 ≤ a.payload.length

instance (f : List UInt8) : Decidable (Deletes f) := inferInstanceAs (Decidable (_ = _))

instance (xs : List UInt8) : Decidable (Carries4 xs) :=
  inferInstanceAs (Decidable (∃ a ∈ addrs xs, _))

instance (xs : List UInt8) : Decidable (Carries6 xs) :=
  inferInstanceAs (Decidable (∃ a ∈ addrs xs, _))

def CarriesId (f : List UInt8) : Prop :=
  ∃ a ∈ msgAttrs f, a.type = ctaId ∧ 4 ≤ a.payload.length

instance (f : List UInt8) : Decidable (CarriesId f) :=
  inferInstanceAs (Decidable (∃ a ∈ msgAttrs f, _))

/-- The message names a connection: by an address of one of its tuples, or, when it deletes a
connection, by the id. -/
def Names (f : List UInt8) : Prop :=
  (Carries4 (origNest f) ∨ Carries6 (origNest f)) ∨
    (Carries4 (replyNest f) ∨ Carries6 (replyNest f)) ∨ (Deletes f ∧ CarriesId f)

instance (f : List UInt8) : Decidable (Names f) :=
  inferInstanceAs (Decidable (_ ∨ _))

/-! ## What becomes of it in the event -/

theorem hasIp_tupleOf (xs : List UInt8) : (tupleOf xs).hasIp = true ↔ Carries4 xs := by
  rw [tupleOf_eq]
  simp only [Tuple.setProto, Tuple.setIp, Bool.false_or, Bool.or_eq_true]
  exact isSome_lastAttr_or_iff

theorem hasIp6_tupleOf (xs : List UInt8) : (tupleOf xs).hasIp6 = true ↔ Carries6 xs := by
  rw [tupleOf_eq]
  simp only [Tuple.setProto, Tuple.setIp, Bool.false_or, Bool.or_eq_true]
  exact isSome_lastAttr_or_iff

theorem lastTuple_eq (type : UInt16) (f : List UInt8) :
    lastTuple type (msgAttrs f) = tupleOf (tupleNest type f) := by
  rw [lastTuple, tupleNest]
  cases lastAttr type 0 (msgAttrs f) <;> rfl

/-- A label is a type and a reason. -/
theorem labelEvent_eq (nlType : UInt16) (nlLen : UInt32) (ev : Event) :
    ∃ type reason, labelEvent nlType nlLen ev = { ev with type := type, reason := reason } := by
  rw [labelEvent]
  split_ifs
  · exact ⟨_, _, rfl⟩
  · exact ⟨_, _, rfl⟩
  · exact ⟨_, _, rfl⟩

/-- The event of a message before it is labelled, with the tuples that count. -/
def decoded (f : List UInt8) : Event :=
  applyTuples (tupleOf (origNest f)) (tupleOf (replyNest f))
    ((eventOfHeader (nlmsgType f) (nlmsgFlags f)).setCt (msgAttrs f))

theorem frameEvent_eq (f : List UInt8) :
    frameEvent f = labelEvent (nlmsgType f) (nlmsgLen f) (decoded f) := by
  rw [frameEvent, ctEvent_eq, lastTuple_eq, lastTuple_eq, decoded]

/-- The header gives one of the three connection types, and `DESTROY` exactly to a deletion. -/
theorem eventOfHeader_cases (f : List UInt8) :
    (Deletes f ∧ eventOfHeader (nlmsgType f) (nlmsgFlags f) =
      { type := .eventDestroy, isDestroy := true }) ∨
    (¬ Deletes f ∧ ∃ type, (type = .eventNew ∨ type = .eventUpdate) ∧
      eventOfHeader (nlmsgType f) (nlmsgFlags f) = { type := type }) := by
  by_cases hdel : Deletes f
  · exact .inl ⟨hdel, if_pos hdel⟩
  · refine .inr ⟨hdel, ?_⟩
    have hmsg : ¬ (nlmsgType f &&& 0xff).toUInt8 = ipctnlMsgCtDelete := hdel
    simp only [eventOfHeader, if_neg hmsg]
    split_ifs
    · exact ⟨_, .inl rfl, rfl⟩
    · exact ⟨_, .inr rfl, rfl⟩
    · exact ⟨_, .inl rfl, rfl⟩
    · exact ⟨_, .inr rfl, rfl⟩

theorem eventOfHeader_eq (nlType nlFlags : UInt16) :
    eventOfHeader nlType nlFlags =
      { type := (eventOfHeader nlType nlFlags).type
        isDestroy := (eventOfHeader nlType nlFlags).isDestroy } := by
  simp only [eventOfHeader]
  split_ifs <;> rfl

theorem decoded_hasLan (f : List UInt8) :
    (decoded f).hasLan = true ↔ Carries4 (origNest f) ∨ Carries6 (origNest f) := by
  rw [decoded, applyTuples_eq, eventOfHeader_eq]
  simp only [Event.setCt, Bool.or_false, Bool.or_eq_true, hasIp_tupleOf, hasIp6_tupleOf]

theorem decoded_hasWan (f : List UInt8) :
    (decoded f).hasWan = true ↔ Carries4 (replyNest f) ∨ Carries6 (replyNest f) := by
  rw [decoded, applyTuples_eq, eventOfHeader_eq]
  simp only [Event.setCt, Bool.or_false, Bool.or_eq_true, hasIp_tupleOf, hasIp6_tupleOf]

theorem decoded_hasId (f : List UInt8) : (decoded f).hasId = true ↔ CarriesId f := by
  rw [decoded, applyTuples_eq, eventOfHeader_eq]
  simp only [Event.setCt, Bool.false_or, isSome_lastAttr_iff]
  rfl

theorem decoded_isDestroy (f : List UInt8) : (decoded f).isDestroy = true ↔ Deletes f := by
  rw [decoded, applyTuples_eq]
  rcases eventOfHeader_cases f with ⟨hdel, hheader⟩ | ⟨hdel, type, _, hheader⟩
  · simp [hheader, Event.setCt, hdel]
  · simp [hheader, Event.setCt, hdel]

theorem decoded_type (f : List UInt8) :
    ((decoded f).type = .eventDestroy ∧ Deletes f) ∨
      (((decoded f).type = .eventNew ∨ (decoded f).type = .eventUpdate) ∧ ¬ Deletes f) := by
  rw [decoded, applyTuples_eq]
  rcases eventOfHeader_cases f with ⟨hdel, hheader⟩ | ⟨hdel, type, htype, hheader⟩
  · exact .inl ⟨by rw [hheader]; rfl, hdel⟩
  · exact .inr ⟨by rw [hheader]; exact htype, hdel⟩

/-- A message that names a connection keeps the event that its header gave it; any other becomes
a `PARTIAL` one. -/
theorem frameEvent_type (f : List UInt8) :
    (Names f → (frameEvent f).type = (decoded f).type) ∧
      (¬ Names f → (frameEvent f).type = .eventPartial) := by
  have hlan := decoded_hasLan f
  have hwan := decoded_hasWan f
  have hid := decoded_hasId f
  have hdestroy := decoded_isDestroy f
  rw [frameEvent_eq, labelEvent, Names, ← hlan, ← hwan, ← hid, ← hdestroy]
  cases (decoded f).hasLan <;> cases (decoded f).hasWan <;> cases (decoded f).isDestroy <;>
    cases (decoded f).hasId <;> simp

theorem frameEvent_isDestroy (f : List UInt8) :
    (frameEvent f).isDestroy = true ↔ Deletes f := by
  rw [frameEvent_eq, labelEvent, ← decoded_isDestroy]
  split_ifs <;> rfl

/-- The event says that a connection was created, changed or destroyed. -/
def Event.Connection (ev : Event) : Prop :=
  ev.type = .eventNew ∨ ev.type = .eventUpdate ∨ ev.type = .eventDestroy

theorem connection_iff_names (f : List UInt8) : (frameEvent f).Connection ↔ Names f := by
  rcases frameEvent_type f with ⟨hyes, hno⟩
  constructor
  · intro hconn
    by_contra hnames
    rw [Event.Connection, hno hnames] at hconn
    rcases hconn with h | h | h <;> cases h
  · intro hnames
    rw [Event.Connection, hyes hnames]
    rcases decoded_type f with ⟨htype, _⟩ | ⟨htype | htype, _⟩
    · exact .inr (.inr htype)
    · exact .inl htype
    · exact .inr (.inl htype)

/-! ## The events of a buffer and its messages -/

/-- The buffer is fed to the context and the context is drained: of the events that were not there
before, the `i`-th is that of the `i`-th message, and they are related as `R` says. -/
def EachDelivered (D : List UInt8) (c : Ctx) (R : List UInt8 → Event → Prop) : Prop :=
  ∀ c', feedInput .lp64 (some c) (some D) = .ok (0, some c') → ∀ es, c'.Drains es →
    ∀ i ev, es[c.queued.length + i]? = some ev → ∃ f, (fullFrames D)[i]? = some f ∧ R f ev

/-- The messages whose events find room in the queue. -/
def accepted (D : List UInt8) (c : Ctx) : List (List UInt8) :=
  (fullFrames D).take c.free

/-- The call does not return if a message is too long to be rounded up; otherwise the accepted
messages are those whose events are delivered. -/
theorem eachDelivered_iff {D : List UInt8} (hD : D.length < 2 ^ 63) (hsynth : ¬ Synthetic D)
    (c : Ctx) (R : List UInt8 → Event → Prop) :
    EachDelivered D c R ↔
      (∃ f ∈ frames D, maxMsg < f.length) ∨ ∀ f ∈ accepted D c, R f (frameEvent f) := by
  have hdelivered : ∀ i, (c.pushAll (feedEvents D)).queued[c.queued.length + i]? =
      (accepted D c)[i]?.map frameEvent := by
    intro i
    rw [QueueCtx.getElem?_queued_pushAll, feedEvents, if_neg hsynth, ← List.map_take,
      List.getElem?_map, accepted]
  -- What is accepted is a prefix of the messages, so an event has the index of its message.
  have hfull : ∀ {i : Nat} {f}, (accepted D c)[i]? = some f → (fullFrames D)[i]? = some f := by
    intro i f hf
    rw [accepted, List.getElem?_take] at hf
    split_ifs at hf with hi
    exact hf
  constructor
  · intro heach
    by_cases hshort : ∀ f ∈ frames D, f.length ≤ maxMsg
    · right
      intro f hf
      rcases List.mem_iff_getElem?.1 hf with ⟨i, hi⟩
      have hev := hdelivered i
      rw [hi] at hev
      rcases heach _ (feedInput_eq hD hshort c) _ (QueueCtx.drains_queued _) i _ hev with
        ⟨f', hf', hR⟩
      rw [hfull hi] at hf'
      cases hf'
      exact hR
    · -- The call does not return, so nothing is claimed of what it delivers.
      left
      push Not at hshort
      exact hshort
  · rintro hcond c' hfeed es hdrains i ev hev
    rcases hcond with ⟨f, hf, hlong⟩ | hcond
    · rw [feedInput_of_long hD hsynth hf hlong] at hfeed
      cases hfeed
    · have hresult := feedInput_ok hD hfeed
      cases hresult
      rw [hdrains.eq_queued {}, hdelivered] at hev
      rcases hf : (accepted D c)[i]? with _ | f
      · rw [hf] at hev
        cases hev
      · rw [hf] at hev
        cases hev
        exact ⟨f, hfull hf, hcond f (List.mem_of_getElem? hf)⟩

/-! ## The subsystem of a message -/

/-- Connection events come from conntrack messages only, unless the call does not return, exactly
if every accepted message of another subsystem names no connection. -/
theorem onlyConntrack_iff {D : List UInt8} (hD : D.length < 2 ^ 63) (hsynth : ¬ Synthetic D)
    (c : Ctx) :
    EachDelivered D c (fun f ev => ev.Connection → subsys f = nfnlSubsysCtnetlink) ↔
      (∃ f ∈ frames D, 2 ^ 32 - 4 < f.length) ∨
        ∀ f ∈ accepted D c, subsys f ≠ nfnlSubsysCtnetlink → ¬ Names f := by
  rw [eachDelivered_iff hD hsynth]
  refine or_congr Iff.rfl (forall₂_congr fun f _ => ?_)
  rw [connection_iff_names]
  exact not_imp_not.symm

/-- What is accepted of complete messages are some of them. -/
theorem mem_of_mem_accepted {ms : List (List UInt8)} {D : List UInt8}
    (hD : msgFraming.Padded ms D) {c : Ctx} {f : List UInt8} (hf : f ∈ accepted D c) : f ∈ ms := by
  have hframe : f ∈ frames D := List.mem_of_mem_filter (List.mem_of_mem_take hf)
  rwa [frames, hD.split_eq] at hframe

/-- New connections from `10.0.0.1` to `10.0.0.2` and from `2001:db8::1` to `2001:db8::2` with their
replies, a connection that is deleted by its id, and a message of the expectation subsystem. -/
def trackedMessages : List (List UInt8) :=
  [[92, 0, 0, 0, 0, 1, 0, 0, 0, 0, 0, 0, 0, 0, 0, 0, 2, 0, 0, 0,
      36, 0, 1, 0x80, 20, 0, 1, 0x80, 8, 0, 1, 0, 10, 0, 0, 1, 8, 0, 2, 0, 10, 0, 0, 2,
      12, 0, 2, 0x80, 5, 0, 1, 0, 6, 0, 0, 0,
      36, 0, 2, 0x80, 20, 0, 1, 0x80, 8, 0, 1, 0, 10, 0, 0, 2, 8, 0, 2, 0, 203, 0, 113, 9,
      12, 0, 2, 0x80, 5, 0, 1, 0, 6, 0, 0, 0],
    [140, 0, 0, 0, 0, 1, 0, 4, 0, 0, 0, 0, 0, 0, 0, 0, 2, 0, 0, 0,
      60, 0, 1, 0x80, 44, 0, 1, 0x80,
      20, 0, 3, 0, 0x20, 0x01, 0x0D, 0xB8, 0, 0, 0, 0, 0, 0, 0, 0, 0, 0, 0, 1,
      20, 0, 4, 0, 0x20, 0x01, 0x0D, 0xB8, 0, 0, 0, 0, 0, 0, 0, 0, 0, 0, 0, 2,
      12, 0, 2, 0x80, 5, 0, 1, 0, 17, 0, 0, 0,
      60, 0, 2, 0x80, 44, 0, 1, 0x80,
      20, 0, 3, 0, 0x20, 0x01, 0x0D, 0xB8, 0, 0, 0, 0, 0, 0, 0, 0, 0, 0, 0, 2,
      20, 0, 4, 0, 0x20, 0x01, 0x0D, 0xB8, 0, 0, 0, 0, 0, 0, 0, 0, 0, 0, 0, 3,
      12, 0, 2, 0x80, 5, 0, 1, 0, 17, 0, 0, 0],
    [28, 0, 0, 0, 2, 1, 0, 0, 0, 0, 0, 0, 0, 0, 0, 0, 2, 0, 0, 0, 8, 0, 12, 0, 0, 0, 0, 7],
    [20, 0, 0, 0, 0, 2, 0, 0, 0, 0, 0, 0, 0, 0, 0, 0, 2, 0, 0, 0]]

theorem padded_trackedMessages : msgFraming.Padded trackedMessages (padMsgs trackedMessages) :=
  padded_padMsgs (by decide +kernel)

example : trackedMessages.map (fun f => (frameEvent f).type) =
    [.eventNew, .eventNew, .eventDestroy, .eventPartial] := by
  decide +kernel

theorem onlyConntrack_trackedMessages :
    EachDelivered (padMsgs trackedMessages) (create .collector)
      (fun f ev => ev.Connection → subsys f = nfnlSubsysCtnetlink) := by
  have hforeign : ∀ f ∈ trackedMessages, subsys f ≠ nfnlSubsysCtnetlink → ¬ Names f := by
    decide +kernel
  exact (onlyConntrack_iff (by decide +kernel) (by decide +kernel) (create .collector)).2
    (.inr fun f hf => hforeign f (mem_of_mem_accepted padded_trackedMessages hf))

/-- A message of the expectation subsystem whose tuple has the source `10.0.0.1`. -/
def expectMessage : List UInt8 :=
  [36, 0, 0, 0, 0, 2, 0, 0, 0, 0, 0, 0, 0, 0, 0, 0, 2, 0, 0, 0,
    16, 0, 1, 0x80, 12, 0, 1, 0x80, 8, 0, 1, 0, 10, 0, 0, 1]

/-- The caller is told of a new connection. -/
theorem expectMessage_delivered :
    ¬ EachDelivered expectMessage (create .collector)
      (fun f ev => ev.Connection → subsys f = nfnlSubsysCtnetlink) := by
  have hshort : ∀ f ∈ frames expectMessage, ¬ maxMsg < f.length := by decide
  have hmem : expectMessage ∈ accepted expectMessage (create .collector) := by decide
  have hcarries : Carries4 (origNest expectMessage) := by decide
  have hforeign : subsys expectMessage ≠ nfnlSubsysCtnetlink := by decide
  rw [eachDelivered_iff (by decide) (by decide)]
  rintro (⟨f, hf, hlong⟩ | hall)
  · exact hshort f hf hlong
  · exact hforeign (hall _ hmem ((connection_iff_names _).2 (.inl (.inl hcarries))))

end Nfct
end Netdiag
