import Netdiag.Netlink.Put
import Netdiag.Nfct.Sources

/-!
# Encode — conntrack records as messages

A conntrack record has an original and a reply tuple of one address family, and up to four
optional fields.  `IsCtMessage` says which byte strings are messages of a record: those that
`nla_put` lays out, in any order of the attributes, with any flag bits in their types, and with
any attributes in between that the parser does not know.

Decoding undoes encoding: each nest of such a message is read as the part of the record that it
carries (`tupleOf_of_isTupleNest`, `ctEvent_of_isCtBody`), and feeding the message to a context
queues the event of the record (`feedInput_ctMessage`).
-/

namespace Netdiag
namespace Nfct

open Lib

/-! ## Records -/

structure TupleRec (A : Type) where
  src : A
  dst : A
  sport : UInt16
  dport : UInt16
  proto : UInt8

structure CtRec (A : Type) where
  orig : TupleRec A
  reply : TupleRec A
  mark : Option UInt32 := none
  zone : Option UInt16 := none
  id : Option UInt32 := none
  status : Option UInt32 := none

/-! The attribute types that the parser handles in each kind of nest. -/

abbrev ipTypes : List UInt16 := [ctaIpV4Src, ctaIpV4Dst, ctaIpV6Src, ctaIpV6Dst]

abbrev protoTypes : List UInt16 := [ctaProtoNum, ctaProtoSrcPort, ctaProtoDstPort]

abbrev tupleTypes : List UInt16 := [ctaTupleIp, ctaTupleProto]

abbrev ctTypes : List UInt16 :=
  [ctaTupleOrig, ctaTupleReply, ctaMark, ctaZone, ctaId, ctaStatus]

/-- What the address families differ in: the types of the attributes for source and destination,
the bytes of an address, and the fields of a tuple that the parser fills from them. -/
structure AddrFamily (A : Type) where
  srcType : UInt16
  dstType : UInt16
  bytes : A → List UInt8
  fill : A → A → Tuple → Tuple
  srcType_mem : srcType ∈ ipTypes
  dstType_mem : dstType ∈ ipTypes
  types_ne : srcType ≠ dstType
  length_bytes_le : ∀ a, (bytes a).length ≤ 16
  setIp_eq : ∀ src dst t,
    Tuple.setIp t [⟨srcType, bytes src⟩, ⟨dstType, bytes dst⟩] = fill src dst t

def ipv4 : AddrFamily UInt32 where
  srcType := ctaIpV4Src
  dstType := ctaIpV4Dst
  bytes := wr32Be
  fill src dst t := { t with srcIp := src, dstIp := dst, hasIp := true }
  srcType_mem := by decide
  dstType_mem := by decide
  types_ne := by decide
  length_bytes_le := by simp
  setIp_eq := by
    intro src dst t
    have hsrc : be32At (wr32Be src) 0 = src := be32_wr32Be src
    have hdst : be32At (wr32Be dst) 0 = dst := be32_wr32Be dst
    simp +decide [Tuple.setIp, lastAttr, hsrc, hdst]

def ipv6 : AddrFamily (Vector UInt8 16) where
  srcType := ctaIpV6Src
  dstType := ctaIpV6Dst
  bytes := Vector.toList
  fill src dst t := { t with srcIp6 := src, dstIp6 := dst, hasIp6 := true }
  srcType_mem := by decide
  dstType_mem := by decide
  types_ne := by decide
  length_bytes_le := by simp
  setIp_eq := by
    intro src dst t
    simp +decide [Tuple.setIp, lastAttr, bytesOf_toList]

/-! ## Messages of a record -/

section Messages

variable {A : Type} (fam : AddrFamily A)

def ipAttrs (t : TupleRec A) : List Attr :=
  [⟨fam.srcType, fam.bytes t.src⟩, ⟨fam.dstType, fam.bytes t.dst⟩]

def protoAttrs (t : TupleRec A) : List Attr :=
  [⟨ctaProtoNum, [t.proto]⟩, ⟨ctaProtoSrcPort, wr16Be t.sport⟩, ⟨ctaProtoDstPort, wr16Be t.dport⟩]

def tupleAttrs (ip proto : List UInt8) : List Attr :=
  [⟨ctaTupleIp, ip⟩, ⟨ctaTupleProto, proto⟩]

def IsTupleNest (t : TupleRec A) (xs : List UInt8) : Prop :=
  ∃ ip proto, Nest ipTypes (ipAttrs fam t) ip ∧ Nest protoTypes (protoAttrs t) proto ∧
    Nest tupleTypes (tupleAttrs ip proto) xs

/-- The top-level attributes of a record whose tuples are laid out as `orig` and `reply`. -/
def ctAttrs (r : CtRec A) (orig reply : List UInt8) : List Attr :=
  [⟨ctaTupleOrig, orig⟩, ⟨ctaTupleReply, reply⟩] ++
    (optAttr ctaMark (r.mark.map wr32Be) ++ (optAttr ctaZone (r.zone.map wr16Be) ++
      (optAttr ctaId (r.id.map wr32Be) ++ optAttr ctaStatus (r.status.map wr32Be))))

def IsCtBody (r : CtRec A) (xs : List UInt8) : Prop :=
  ∃ orig reply, IsTupleNest fam r.orig orig ∧ IsTupleNest fam r.reply reply ∧
    Nest ctTypes (ctAttrs r orig reply) xs

/-- The bytes are a message of the record with the given header. -/
def IsCtMessage (r : CtRec A) (h : MsgHeader) (D : List UInt8) : Prop :=
  ∃ body, IsCtBody fam r body ∧ D = putMsg h body

end Messages

/-! ## The event of a record -/

/-- The fields that do not depend on the address family. -/
def CtRec.common {A : Type} (r : CtRec A) (ev : Event) : Event :=
  { ev with
      protocol := r.orig.proto
      lanSrcPort := r.orig.sport
      lanDstPort := r.orig.dport
      wanSrcPort := r.reply.dport
      wanDstPort := r.reply.sport
      mark := (r.mark.getD 0).toUInt64
      zone := (r.zone.getD 0).toUInt32
      id := r.id.getD 0
      hasId := r.id.isSome
      status := r.status.getD 0
      hasStatus := r.status.isSome
      hasLan := true
      hasWan := true }

/-- The event of an IPv4 record: LAN is the original direction, WAN the reply with its ends
swapped. -/
def CtRec.event4 (r : CtRec UInt32) (h : MsgHeader) : Event :=
  { r.common (eventOfHeader h.nlType h.nlFlags) with
      lanSrcIp := r.orig.src
      lanDstIp := r.orig.dst
      wanSrcIp := r.reply.dst
      wanDstIp := r.reply.src
      isIpv6 := false }

def CtRec.event6 (r : CtRec (Vector UInt8 16)) (h : MsgHeader) : Event :=
  { r.common (eventOfHeader h.nlType h.nlFlags) with
      lanSrcIp6 := r.orig.src
      lanDstIp6 := r.orig.dst
      wanSrcIp6 := r.reply.dst
      wanDstIp6 := r.reply.src
      isIpv6 := true }

/-! ## Decoding undoes encoding -/

section Decoding

variable {A : Type} {fam : AddrFamily A}

/-- The tuple that the parser makes of a tuple of a record. -/
def TupleRec.toTuple (fam : AddrFamily A) (t : TupleRec A) : Tuple :=
  fam.fill t.src t.dst
    { srcPort := t.sport, dstPort := t.dport, proto := t.proto, hasProto := true, hasPorts := true }

theorem setIp_of_nest {t : TupleRec A} {xs : List UInt8}
    (h : Nest ipTypes (ipAttrs fam t) xs) (u : Tuple) :
    u.setIp (attrs xs) = fam.fill t.src t.dst u := by
  -- Unknown attributes and the order of the known ones do not change which one decides a field.
  have hnodup : ((ipAttrs fam t).map Attr.type).Nodup := by
    simpa [ipAttrs] using fam.types_ne
  have hlast : ∀ type ∈ ipTypes, ∀ min,
      lastAttr type min (attrs xs) = lastAttr type min (ipAttrs fam t) :=
    fun type htype min => lastAttr_of_nest h hnodup htype min
  rw [← fam.setIp_eq, ← ipAttrs]
  simp only [Tuple.setIp]
  rw [hlast ctaIpV4Src (by decide), hlast ctaIpV4Dst (by decide), hlast ctaIpV6Src (by decide),
    hlast ctaIpV6Dst (by decide)]

theorem setProto_of_nest {t : TupleRec A} {xs : List UInt8}
    (h : Nest protoTypes (protoAttrs t) xs) (u : Tuple) :
    u.setProto (attrs xs) =
      { u with srcPort := t.sport, dstPort := t.dport, proto := t.proto,
               hasProto := true, hasPorts := true } := by
  have hnodup : ((protoAttrs t).map Attr.type).Nodup :=
    show protoTypes.Nodup by decide
  have hsport : be16At (wr16Be t.sport) 0 = t.sport := be16_wr16Be t.sport
  have hdport : be16At (wr16Be t.dport) 0 = t.dport := be16_wr16Be t.dport
  have hlast : ∀ type ∈ protoTypes, ∀ min,
      lastAttr type min (attrs xs) = lastAttr type min (protoAttrs t) :=
    fun type htype min => lastAttr_of_nest h hnodup htype min
  rw [Tuple.setProto, hlast ctaProtoNum (by decide), hlast ctaProtoSrcPort (by decide),
    hlast ctaProtoDstPort (by decide)]
  simp +decide [protoAttrs, lastAttr, hsport, hdport]

theorem tupleOf_of_isTupleNest {t : TupleRec A} {xs : List UInt8} (h : IsTupleNest fam t xs) :
    tupleOf xs = t.toTuple fam := by
  rcases h with ⟨ip, proto, hip, hproto, hnest⟩
  have hnodup : ((tupleAttrs ip proto).map Attr.type).Nodup :=
    show tupleTypes.Nodup by decide
  have hips : nested ctaTupleIp (attrs xs) = attrs ip := by
    rw [nested_of_nest hnest hnodup (by decide)]
    simp +decide [nested, tupleAttrs]
  have hprotos : nested ctaTupleProto (attrs xs) = attrs proto := by
    rw [nested_of_nest hnest hnodup (by decide)]
    simp +decide [nested, tupleAttrs]
  -- Addresses and ports fill different fields, so the order of the two nests does not matter.
  have hcomm : ∀ (u : Tuple) (is ps : List Attr),
      (u.setIp is).setProto ps = (u.setProto ps).setIp is := fun _ _ _ => rfl
  rw [tupleOf_eq, hips, hprotos, hcomm, setProto_of_nest hproto, setIp_of_nest hip]
  rfl

theorem nodup_ctAttrs (r : CtRec A) (orig reply : List UInt8) :
    ((ctAttrs r orig reply).map Attr.type).Nodup := by
  have hall : ctTypes.Nodup := by decide
  refine hall.sublist ?_
  simp only [ctAttrs, List.map_append]
  exact (List.Sublist.refl [ctaTupleOrig, ctaTupleReply]).append
    ((optAttr_types _ _).append ((optAttr_types _ _).append
      ((optAttr_types _ _).append (optAttr_types _ _))))

/-- The event after the optional attributes of a record. -/
def CtRec.setCt (r : CtRec A) (ev : Event) : Event :=
  { ev with
      mark := (r.mark.map UInt32.toUInt64).getD ev.mark
      zone := (r.zone.map UInt16.toUInt32).getD ev.zone
      id := r.id.getD ev.id
      hasId := ev.hasId || r.id.isSome
      status := r.status.getD ev.status
      hasStatus := ev.hasStatus || r.status.isSome }

theorem setCt_ctAttrs (r : CtRec A) (orig reply : List UInt8) (ev : Event) :
    ev.setCt (ctAttrs r orig reply) = r.setCt ev := by
  have h32 : ∀ v, be32At (wr32Be v) 0 = v := be32_wr32Be
  have h16 : ∀ v, be16At (wr16Be v) 0 = v := be16_wr16Be
  rcases r with ⟨_, _, mark, zone, id, status⟩
  simp +decide only [Event.setCt, CtRec.setCt, ctAttrs, lastAttr_append, lastAttr_optAttr,
    if_true, if_false, Option.or_none, Option.none_or]
  cases mark <;> cases zone <;> cases id <;> cases status <;>
    simp +decide [Option.filter, lastAttr, h32, h16]

theorem ctEvent_of_isCtBody {r : CtRec A} {xs : List UInt8} (h : IsCtBody fam r xs) (ev : Event) :
    ctEvent (attrs xs) ev =
      applyTuples (r.orig.toTuple fam) (r.reply.toTuple fam) (r.setCt ev) := by
  rcases h with ⟨orig, reply, horig, hreply, hnest⟩
  have hlast : ∀ type ∈ ctTypes, ∀ min,
      lastAttr type min (attrs xs) = lastAttr type min (ctAttrs r orig reply) :=
    fun type htype min => lastAttr_of_nest hnest (nodup_ctAttrs r orig reply) htype min
  -- The four plain fields, then the two tuples, each from the last attribute of its type.
  have hmeta : ev.setCt (attrs xs) = r.setCt ev := by
    rw [← setCt_ctAttrs r orig reply, Event.setCt, hlast ctaMark (by decide),
      hlast ctaZone (by decide), hlast ctaId (by decide), hlast ctaStatus (by decide),
      ← Event.setCt]
  have hfirst : lastTuple ctaTupleOrig (attrs xs) = tupleOf orig := by
    rw [lastTuple, hlast ctaTupleOrig (by decide), ctAttrs]
    simp +decide only [lastAttr_append, lastAttr_optAttr, if_false, Option.none_or]
    rfl
  have hsecond : lastTuple ctaTupleReply (attrs xs) = tupleOf reply := by
    rw [lastTuple, hlast ctaTupleReply (by decide), ctAttrs]
    simp +decide only [lastAttr_append, lastAttr_optAttr, if_false, Option.none_or]
    rfl
  rw [ctEvent_eq, hmeta, hfirst, hsecond, tupleOf_of_isTupleNest horig,
    tupleOf_of_isTupleNest hreply]

end Decoding

section Feeding

variable {A : Type} {fam : AddrFamily A} {r : CtRec A} {h : MsgHeader} {D : List UInt8}

/-- The event of a message of a record, before it is given the fields of its tuples. -/
theorem frameEvent_of_isCtMessage (hmsg : IsCtMessage fam r h D) :
    frameEvent D = labelEvent (nlmsgType D) (nlmsgLen D)
      (applyTuples (r.orig.toTuple fam) (r.reply.toTuple fam)
        (r.setCt (eventOfHeader h.nlType h.nlFlags))) := by
  rcases hmsg with ⟨body, hbody, rfl⟩
  rw [frameEvent, msgAttrs, drop_putMsg, ctEvent_of_isCtBody hbody, nlmsgType_putMsg,
    nlmsgFlags_putMsg]

theorem feedInput_of_isCtMessage (hmsg : IsCtMessage fam r h D) (hlen : D.length < 0x5443464E)
    (p : Platform) (c : Ctx) :
    feedInput p (some c) (some D) = .ok (0, some (c.pushAll [frameEvent D])) := by
  rcases hmsg with ⟨body, _, rfl⟩
  have htotal := length_putMsg h body
  exact feedInput_of_item (item_putMsg h (by omega)) (by omega) hlen c

end Feeding

/-- A field of the event is zero where the record has no value for it. -/
theorem CtRec.setCt_zero {A : Type} (r : CtRec A) (type : EventType) (isDestroy : Bool) :
    r.setCt { type, isDestroy } =
      { type, isDestroy
        mark := (r.mark.getD 0).toUInt64
        zone := (r.zone.getD 0).toUInt32
        id := r.id.getD 0
        hasId := r.id.isSome
        status := r.status.getD 0
        hasStatus := r.status.isSome } := by
  rcases r with ⟨_, _, mark, zone, id, status⟩
  cases mark <;> cases zone <;> rfl

theorem frameEvent_ipv4 {r : CtRec UInt32} {h : MsgHeader} {D : List UInt8}
    (hmsg : IsCtMessage ipv4 r h D) : frameEvent D = r.event4 h := by
  rw [frameEvent_of_isCtMessage hmsg, CtRec.event4, eventOfHeader_eq, CtRec.setCt_zero]
  rfl

theorem frameEvent_ipv6 {r : CtRec (Vector UInt8 16)} {h : MsgHeader} {D : List UInt8}
    (hmsg : IsCtMessage ipv6 r h D) : frameEvent D = r.event6 h := by
  rw [frameEvent_of_isCtMessage hmsg, CtRec.event6, eventOfHeader_eq, CtRec.setCt_zero]
  rfl

/-! ## A message for every record -/

section Building

variable {A : Type} (fam : AddrFamily A)

def putTuple (t : TupleRec A) : List UInt8 :=
  putAll (tupleAttrs (putAll (ipAttrs fam t)) (putAll (protoAttrs t)))

/-- The message that the tests build (`build_ct_new`): every attribute once, in the order of the
record and without flags. -/
def putCt (r : CtRec A) (h : MsgHeader) : List UInt8 :=
  putMsg h (putAll (ctAttrs r (putTuple fam r.orig) (putTuple fam r.reply)))

variable {fam}

theorem plain_ipAttrs (t : TupleRec A) : Plain ipTypes 16 (ipAttrs fam t) := by
  intro a ha
  rcases List.mem_pair.1 ha with rfl | rfl
  · exact ⟨fam.srcType_mem, fam.length_bytes_le _⟩
  · exact ⟨fam.dstType_mem, fam.length_bytes_le _⟩

theorem plain_protoAttrs (t : TupleRec A) : Plain protoTypes 2 (protoAttrs t) := by
  simp +decide [Plain, protoAttrs]

theorem plain_tupleAttrs {ip proto : List UInt8} {k : Nat} (hip : ip.length ≤ k)
    (hproto : proto.length ≤ k) : Plain tupleTypes k (tupleAttrs ip proto) := by
  simp +decide [Plain, tupleAttrs, hip, hproto]

theorem plain_ctAttrs (r : CtRec A) {orig reply : List UInt8} {k : Nat} (hk : 4 ≤ k)
    (horig : orig.length ≤ k) (hreply : reply.length ≤ k) :
    Plain ctTypes k (ctAttrs r orig reply) := by
  have h32 : ∀ v : Option UInt32, ∀ xs ∈ v.map wr32Be, xs.length ≤ k := by
    rintro (_ | v) xs hxs <;> cases hxs
    exact hk
  have h16 : ∀ v : Option UInt16, ∀ xs ∈ v.map wr16Be, xs.length ≤ k := by
    rintro (_ | v) xs hxs <;> cases hxs
    rw [length_wr16Be]
    omega
  intro a ha
  simp only [ctAttrs, List.mem_append] at ha
  rcases ha with ha | ha | ha | ha | ha
  · rcases List.mem_pair.1 ha with rfl | rfl
    · exact ⟨show ctaTupleOrig ∈ ctTypes by decide, horig⟩
    · exact ⟨show ctaTupleReply ∈ ctTypes by decide, hreply⟩
  · exact plain_optAttr (by decide) (h32 r.mark) a ha
  · exact plain_optAttr (by decide) (h16 r.zone) a ha
  · exact plain_optAttr (by decide) (h32 r.id) a ha
  · exact plain_optAttr (by decide) (h32 r.status) a ha

theorem isTupleNest_putTuple (fam : AddrFamily A) (t : TupleRec A) :
    IsTupleNest fam t (putTuple fam t) ∧ (putTuple fam t).length ≤ 106 := by
  have hip : (putAll (ipAttrs fam t)).length ≤ 46 :=
    (plain_ipAttrs t).length_putAll_le (by decide)
  have hproto : (putAll (protoAttrs t)).length ≤ 27 :=
    (plain_protoAttrs t).length_putAll_le (by decide)
  have hplain := plain_tupleAttrs hip (k := 46) (by omega : (putAll (protoAttrs t)).length ≤ 46)
  refine ⟨⟨_, _, (plain_ipAttrs t).nest (by decide) (by decide),
    (plain_protoAttrs t).nest (by decide) (by decide), hplain.nest (by decide) (by decide)⟩, ?_⟩
  exact hplain.length_putAll_le (by decide)

theorem isCtMessage_putCt (r : CtRec A) (h : MsgHeader) : IsCtMessage fam r h (putCt fam r h) := by
  rcases isTupleNest_putTuple fam r.orig with ⟨horig, horig_le⟩
  rcases isTupleNest_putTuple fam r.reply with ⟨hreply, hreply_le⟩
  have hplain := plain_ctAttrs r (by decide) horig_le hreply_le
  exact ⟨_, ⟨_, _, horig, hreply, hplain.nest (by decide) (by decide)⟩, rfl⟩

theorem length_putCt_lt (r : CtRec A) (h : MsgHeader) :
    (putCt fam r h).length < 0x5443464E := by
  have horig := (isTupleNest_putTuple fam r.orig).2
  have hreply := (isTupleNest_putTuple fam r.reply).2
  have hplain := plain_ctAttrs r (by decide) horig hreply
  have hbody := hplain.length_putAll_le (by decide)
  -- Two tuples and at most four optional attributes.
  have hcount : (ctAttrs r (putTuple fam r.orig) (putTuple fam r.reply)).length ≤ 6 := by
    have hmark := length_optAttr_le ctaMark (r.mark.map wr32Be)
    have hzone := length_optAttr_le ctaZone (r.zone.map wr16Be)
    have hid := length_optAttr_le ctaId (r.id.map wr32Be)
    have hstatus := length_optAttr_le ctaStatus (r.status.map wr32Be)
    simp only [ctAttrs, List.length_append, List.length_cons, List.length_nil]
    omega
  rw [putCt, length_putMsg]
  omega

end Building

/-! ## The round trip -/

/-- Feeding a message of a record to a context with a free slot queues the event of the record. -/
theorem feedInput_ctMessage (p : Platform) (c : Ctx) (hfree : 0 < c.free) (h : MsgHeader)
    (D : List UInt8) (hlen : D.length < 0x5443464E) :
    (∀ r : CtRec UInt32, IsCtMessage ipv4 r h D →
      ∃ c', feedInput p (some c) (some D) = .ok (0, some c') ∧
        c'.queued = c.queued ++ [r.event4 h]) ∧
    (∀ r : CtRec (Vector UInt8 16), IsCtMessage ipv6 r h D →
      ∃ c', feedInput p (some c) (some D) = .ok (0, some c') ∧
        c'.queued = c.queued ++ [r.event6 h]) := by
  have htake : ∀ ev : Event, [ev].take c.free = [ev] := by
    intro ev
    exact List.take_of_length_le hfree
  constructor
  · intro r hmsg
    refine ⟨_, feedInput_of_isCtMessage hmsg hlen p c, ?_⟩
    rw [QueueCtx.queued_pushAll, htake, frameEvent_ipv4 hmsg]
  · intro r hmsg
    refine ⟨_, feedInput_of_isCtMessage hmsg hlen p c, ?_⟩
    rw [QueueCtx.queued_pushAll, htake, frameEvent_ipv6 hmsg]

/-- A TCP connection of `192.168.1.50` through `203.0.113.9`. -/
def snatRec : CtRec UInt32 where
  orig := { src := 0xC0A80132, dst := 0x08080808, sport := 12345, dport := 53, proto := 6 }
  reply := { src := 0x08080808, dst := 0xCB007109, sport := 53, dport := 54321, proto := 6 }

/-- The header of a `NEW` message. -/
def newHeader : MsgHeader where
  nlType := 0x0100
  nlFlags := 0
  seq := 0
  pid := 0
  family := #v[2, 0, 0, 0]

/-- The message of the tests in a fresh context. -/
theorem feedInput_ctMessage_snat :
    ∃ c', feedInput .lp64 (some (create .collector)) (some (putCt ipv4 snatRec newHeader)) =
        .ok (0, some c') ∧
      c'.queued = (create .collector).queued ++ [snatRec.event4 newHeader] :=
  (feedInput_ctMessage .lp64 (create .collector) (by decide) newHeader _
    (length_putCt_lt snatRec newHeader)).1 snatRec (isCtMessage_putCt snatRec newHeader)

end Nfct
end Netdiag
