import Netdiag.Nfct.Encode
import Netdiag.Nl80211.Encode
import Netdiag.Parsers.Sessions

/-!
# Records — streams of encoded records

The events of a session over a stream of encoded records are the events of the records, in their
order and each once, however the records were encoded and wherever the stream was cut
(`session_records`).  What a caller reads of a connection are the ends of its record.
-/

namespace Netdiag

open Lib

/-! ## Pieces of encoded records -/

/-- The pieces of a stream, with the records that their messages carry: at most `room` in each. -/
def RecordPieces {A : Type} (IsMessage : A → List UInt8 → Prop) (bound room : Nat)
    (rss : List (List A)) (Ds : List (List UInt8)) : Prop :=
  List.Forall₂ (fun rs D => (∃ ms, List.Forall₂ IsMessage rs ms ∧ msgFraming.Padded ms D) ∧
    rs.length ≤ room ∧ D.length < bound) rss Ds

section Pieces

variable {A : Type} {IsMessage : A → List UInt8 → Prop} {bound room : Nat}
  {rss : List (List A)} {Ds : List (List UInt8)}

theorem RecordPieces.pieces (h : RecordPieces IsMessage bound room rss Ds) :
    ∃ mss, Pieces bound mss Ds ∧ List.Forall₂ (List.Forall₂ IsMessage) rss mss := by
  induction h with
  | nil => exact ⟨[], ⟨.nil, fun D hD => absurd hD List.not_mem_nil⟩, .nil⟩
  | cons hfirst _ ih =>
      rcases hfirst with ⟨⟨ms, hms, hpadded⟩, _, hbound⟩
      rcases ih with ⟨mss, ⟨hpieces, hbounds⟩, hmss⟩
      exact ⟨ms :: mss, ⟨.cons hpadded hpieces, List.forall_mem_cons.2 ⟨hbound, hbounds⟩⟩,
        .cons hms hmss⟩

/-- Encoding records, some in each piece. -/
theorem recordPieces_padMsgs {put : A → List UInt8} (hput : ∀ r, IsMessage r (put r))
    (h : ∀ rs ∈ rss, (∀ r ∈ rs, msgFraming.Item (put r)) ∧ rs.length ≤ room ∧
      (padMsgs (rs.map put)).length < bound) :
    RecordPieces IsMessage bound room rss (rss.map fun rs => padMsgs (rs.map put)) := by
  induction rss with
  | nil => exact .nil
  | cons rs rss ih =>
      rcases List.forall_mem_cons.1 h with ⟨⟨hitems, hroom, hbound⟩, hrest⟩
      have hmsgs : List.Forall₂ IsMessage rs (rs.map put) :=
        List.forall₂_map_right_iff.2 (List.forall₂_same.2 fun r _ => hput r)
      have hpadded : msgFraming.Padded (rs.map put) (padMsgs (rs.map put)) :=
        padded_padMsgs (List.forall_mem_map.2 hitems)
      exact .cons ⟨⟨_, hmsgs, hpadded⟩, hroom, hbound⟩ (ih hrest)

/-- Decoding the messages of some records, each to the event of its record. -/
theorem map_of_forall₂ {E : Type} {event : A → E} {decode : List UInt8 → E}
    (hdecode : ∀ r m, IsMessage r m → decode m = event r) {rs : List A} {ms : List (List UInt8)}
    (h : List.Forall₂ IsMessage rs ms) : ms.map decode = rs.map event := by
  induction h with
  | nil => rfl
  | cons hmsg _ ih => rw [List.map_cons, List.map_cons, ih, hdecode _ _ hmsg]

/-- The messages that a selection keeps of a stream of records, if it keeps all of theirs. -/
theorem RecordPieces.selected (h : RecordPieces IsMessage bound room rss Ds)
    (select : List UInt8 → List (List UInt8))
    (hselect : ∀ rs ms D, List.Forall₂ IsMessage rs ms → msgFraming.Padded ms D →
      select D = ms) {E : Type} (event : A → E) {decode : List UInt8 → E}
    (hdecode : ∀ r m, IsMessage r m → decode m = event r) :
    (Ds.flatMap select).map decode = rss.flatten.map event ∧
      ∀ D ∈ Ds, (select D).length ≤ room := by
  induction h with
  | nil => exact ⟨rfl, fun D hD => absurd hD List.not_mem_nil⟩
  | cons hfirst _ ih =>
      -- Each piece is padded by itself, so that the selection of all is that of each in turn.
      rcases hfirst with ⟨⟨ms, hms, hpadded⟩, hroom, _⟩
      have hall := hselect _ _ _ hms hpadded
      constructor
      · rw [List.flatMap_cons, List.map_append, ih.1, hall, List.flatten_cons, List.map_append,
          map_of_forall₂ hdecode hms]
      · refine List.forall_mem_cons.2 ⟨?_, ih.2⟩
        rw [hall, ← hms.length_eq]
        exact hroom

end Pieces

/-- All messages of a buffer are long enough for both headers. -/
theorem fullFrames_of_padded {ms : List (List UInt8)} {D : List UInt8}
    (hD : msgFraming.Padded ms D) (hfull : ∀ m ∈ ms, 20 ≤ m.length) : fullFrames D = ms := by
  rw [fullFrames, frames, hD.split_eq]
  exact List.filter_eq_self.2 fun m hm => decide_eq_true (hfull m hm)

theorem forall_mem_of_forall₂ {A B : Type} {R : A → B → Prop} {P : B → Prop}
    (hR : ∀ a b, R a b → P b) {as : List A} {bs : List B} (h : List.Forall₂ R as bs) :
    ∀ b ∈ bs, P b := by
  induction h with
  | nil => exact fun b hb => absurd hb List.not_mem_nil
  | cons hfirst _ ih => exact List.forall_mem_cons.2 ⟨hR _ _ hfirst, ih⟩

/-! ## Connections -/

namespace Nfct

/-- A record of one of the families, with the header of its message. -/
inductive Rec where
  | v4 (r : CtRec UInt32) (h : MsgHeader)
  | v6 (r : CtRec (Vector UInt8 16)) (h : MsgHeader)

def Rec.IsMessage : Rec → List UInt8 → Prop
  | .v4 r h, D => IsCtMessage ipv4 r h D
  | .v6 r h, D => IsCtMessage ipv6 r h D

def Rec.event : Rec → Event
  | .v4 r h => r.event4 h
  | .v6 r h => r.event6 h

def Rec.put : Rec → List UInt8
  | .v4 r h => putCt ipv4 r h
  | .v6 r h => putCt ipv6 r h

theorem Rec.isMessage_put (r : Rec) : r.IsMessage r.put := by
  cases r with
  | v4 r h => exact isCtMessage_putCt r h
  | v6 r h => exact isCtMessage_putCt r h

/-- What the extractors write for the ends of a record of their own family. -/
def TupleOut.ofRec {A : Type} (out : TupleOut A) (r : CtRec A) : TupleOut A where
  lanSrc := store out.lanSrc r.orig.src
  lanSrcPort := store out.lanSrcPort r.orig.sport
  wanSrc := store out.wanSrc r.reply.dst
  wanSrcPort := store out.wanSrcPort r.reply.dport
  protocol := store out.protocol r.orig.proto

/-- The extractor of its family reads the ends of the record from the event, and finds them
complete if the record has a protocol; the other one leaves everything as it was. -/
def Rec.ReadFrom (ev : Event) : Rec → Prop
  | .v4 r _ =>
      (∀ out, eventForensicsTuple (some ev) out =
        (if r.orig.proto ≠ 0 then 1 else 0, out.ofRec r)) ∧
      ∀ out, eventForensicsTupleV6 (some ev) out = (0, out)
  | .v6 r _ =>
      (∀ out, eventForensicsTupleV6 (some ev) out =
        (if r.orig.proto ≠ 0 then 1 else 0, out.ofRec r)) ∧
      ∀ out, eventForensicsTuple (some ev) out = (0, out)

theorem Rec.readFrom_event (r : Rec) : r.ReadFrom r.event := by
  cases r with
  | v4 r h =>
      refine ⟨fun out => ?_, fun out => rfl⟩
      simp [eventForensicsTuple, event, CtRec.event4, CtRec.common, TupleOut.ofRec]
  | v6 r h =>
      refine ⟨fun out => ?_, fun out => rfl⟩
      simp [eventForensicsTupleV6, event, CtRec.event6, CtRec.common, TupleOut.ofRec]

theorem Rec.frameEvent_eq (r : Rec) (m : List UInt8) (h : r.IsMessage m) :
    frameEvent m = r.event := by
  cases r with
  | v4 r hd => exact frameEvent_ipv4 h
  | v6 r hd => exact frameEvent_ipv6 h

theorem Rec.full (r : Rec) (m : List UInt8) (h : r.IsMessage m) : 20 ≤ m.length := by
  cases r <;>
  · rcases h with ⟨body, _, rfl⟩
    rw [length_putMsg]
    exact Nat.le_add_right 20 _

end Nfct

/-! ## Stations -/

namespace Nl80211

/-- The message of a record names its station. -/
theorem identified_of_isStaMessage {r : StaRec} {h : MsgHeader} {D : List UInt8}
    (hmsg : IsStaMessage r h D) : Identified (msgAttrs D) := by
  have hevent := frameEvent_of_isStaMessage hmsg
  rw [frameEvent] at hevent
  rw [← named_stationEvent_iff, hevent]
  rfl

theorem stationFrames_of_padded {rs : List (StaRec × MsgHeader)} {ms : List (List UInt8)}
    {D : List UInt8} (hms : List.Forall₂ (fun r m => IsStaMessage r.1 r.2 m) rs ms)
    (hD : msgFraming.Padded ms D) : stationFrames D = ms := by
  have hfull : ∀ m ∈ ms, 20 ≤ m.length := by
    refine forall_mem_of_forall₂ ?_ hms
    rintro r m ⟨body, _, rfl⟩
    rw [length_putMsg]
    exact Nat.le_add_right 20 _
  have hnamed : ∀ m ∈ ms, Identified (msgAttrs m) :=
    forall_mem_of_forall₂ (fun _ _ hmsg => identified_of_isStaMessage hmsg) hms
  rw [stationFrames, fullFrames_of_padded hD hfull]
  exact List.filter_eq_self.2 fun m hm => decide_eq_true (hnamed m hm)

end Nl80211

/-! ## Sessions over records -/

/-- A session over encoded records gives their events, and what the extractors read of them. -/
theorem session_records :
    (∀ (c : Nfct.Ctx) (rss : List (List Nfct.Rec)) Ds, c.queued = [] →
      RecordPieces Nfct.Rec.IsMessage 0x5443464E c.qsz rss Ds →
        (∃ c' es, (Nfct.parser .lp64).Session c Ds c' es) ∧
        ∀ c' es, (Nfct.parser .lp64).Session c Ds c' es →
          es = rss.flatten.map Nfct.Rec.event ∧
          List.Forall₂ Nfct.Rec.ReadFrom es rss.flatten) ∧
    (∀ (c : Nl80211.Ctx) (rss : List (List (Nl80211.StaRec × MsgHeader))) Ds, c.queued = [] →
      RecordPieces (fun r m => Nl80211.IsStaMessage r.1 r.2 m) 0x31313238 c.qsz rss Ds →
        (∃ c' es, (Nl80211.parser .lp64).Session c Ds c' es) ∧
        ∀ c' es, (Nl80211.parser .lp64).Session c Ds c' es →
          es = rss.flatten.map fun r => r.1.event) := by
  constructor
  · intro c rss Ds hempty hrecords
    rcases hrecords.pieces with ⟨mss, hpieces, _⟩
    -- The messages of records have both headers, so that the parser leaves none out.
    have hselected := hrecords.selected fullFrames
      (fun rs ms D hms hD => fullFrames_of_padded hD (forall_mem_of_forall₂ Nfct.Rec.full hms)) _
      Nfct.Rec.frameEvent_eq
    rcases session_stream.1 c mss Ds hempty hpieces with ⟨⟨c', es, hsession, _⟩, hall⟩
    refine ⟨⟨c', es, hsession⟩, fun c' es hsession => ?_⟩
    have hes : es = rss.flatten.map Nfct.Rec.event := by
      rw [(hall c' es hsession).2.2 hselected.2, fullFrames_flatten hpieces.1, hselected.1]
    refine ⟨hes, ?_⟩
    rw [hes, List.forall₂_map_left_iff]
    exact List.forall₂_same.2 fun r _ => r.readFrom_event
  · intro c rss Ds hempty hrecords
    rcases hrecords.pieces with ⟨mss, hpieces, _⟩
    -- These also name a station.
    have hselected := hrecords.selected Nl80211.stationFrames
      (fun rs ms D => Nl80211.stationFrames_of_padded) (fun r => r.1.event)
      (fun r m => Nl80211.frameEvent_of_isStaMessage)
    rcases session_stream.2 c mss Ds hempty hpieces with ⟨⟨c', es, hsession, _⟩, hall⟩
    refine ⟨⟨c', es, hsession⟩, fun c' es hsession => ?_⟩
    rw [(hall c' es hsession).2.2 hselected.2, Nl80211.stationFrames_flatten hpieces.1,
      hselected.1]

/-- A connection over IPv6 that is gone. -/
def Nfct.goneRec : Nfct.Rec :=
  .v6 { orig :=
          { src := #v[0x20, 1, 0xd, 0xb8, 0, 0, 0, 0, 0, 0, 0, 0, 0, 0, 0, 1]
            dst := #v[0x20, 1, 0xd, 0xb8, 0, 0, 0, 0, 0, 0, 0, 0, 0, 0, 0, 2]
            sport := 50000, dport := 443, proto := 17 }
        reply :=
          { src := #v[0x20, 1, 0xd, 0xb8, 0, 0, 0, 0, 0, 0, 0, 0, 0, 0, 0, 2]
            dst := #v[0x20, 1, 0xd, 0xb8, 0, 0, 0, 0, 0, 0, 0, 0, 0, 0, 0, 3]
            sport := 443, dport := 50001, proto := 17 }
        mark := some 3
        id := some 9 }
    { newHeader with nlType := 0x0102 }

/-- Two connections in a buffer, and the first one again in the next. -/
def Nfct.sessionRecs : List (List Nfct.Rec) :=
  [[.v4 Nfct.snatRec Nfct.newHeader, Nfct.goneRec],
    [.v4 { Nfct.snatRec with status := some 8 } Nfct.newHeader]]

/-- Two stations in a buffer, and one of them in the next. -/
def Nl80211.sessionRecs : List (List (Nl80211.StaRec × MsgHeader)) :=
  [[(Nl80211.testStation, Nl80211.testHeader),
      ({ mac := #v[2, 0, 0, 0, 0, 7], rxBytes := some 1500 }, Nl80211.testHeader)],
    [({ Nl80211.testStation with signal := some (-70) }, Nl80211.testHeader)]]

theorem session_records_padMsgs :
    (∃ c' es, (Nfct.parser .lp64).Session (Nfct.create .collector)
        (Nfct.sessionRecs.map fun rs => padMsgs (rs.map Nfct.Rec.put)) c' es ∧
      es = Nfct.sessionRecs.flatten.map Nfct.Rec.event ∧
      List.Forall₂ Nfct.Rec.ReadFrom es Nfct.sessionRecs.flatten) ∧
    ∃ c' es, (Nl80211.parser .lp64).Session (Nl80211.parseCreate .collector)
        (Nl80211.sessionRecs.map fun rs => padMsgs (rs.map fun r => Nl80211.putStation r.1 r.2))
        c' es ∧
      es = Nl80211.sessionRecs.flatten.map fun r => r.1.event := by
  have hct : RecordPieces Nfct.Rec.IsMessage 0x5443464E (Nfct.create .collector).qsz
      Nfct.sessionRecs (Nfct.sessionRecs.map fun rs => padMsgs (rs.map Nfct.Rec.put)) :=
    recordPieces_padMsgs Nfct.Rec.isMessage_put (by decide +kernel)
  have hsta : RecordPieces (fun r m => Nl80211.IsStaMessage r.1 r.2 m) 0x31313238
      (Nl80211.parseCreate .collector).qsz Nl80211.sessionRecs
      (Nl80211.sessionRecs.map fun rs => padMsgs (rs.map fun r => Nl80211.putStation r.1 r.2)) :=
    recordPieces_padMsgs (fun r => Nl80211.isStaMessage_putStation r.1 r.2) (by decide +kernel)
  have hall := session_records
  rcases hall.1 _ _ _ (Nfct.queued_createWithConfig .collector none) hct with
    ⟨⟨c₁, es₁, hfirst⟩, hevents₁⟩
  rcases hall.2 (Nl80211.parseCreate .collector) _ _ (QueueCtx.queued_init _ _ _ _ _) hsta with
    ⟨⟨c₂, es₂, hsecond⟩, hevents₂⟩
  exact ⟨⟨c₁, es₁, hfirst, hevents₁ c₁ es₁ hfirst⟩, c₂, es₂, hsecond,
    hevents₂ c₂ es₂ hsecond⟩

end Netdiag
