import Netdiag.Netlink.Attr
import Netdiag.Nfct.Event

/-!
# Parse — the conntrack parser as the code runs it

`src/nfct.c` from `parse_tuple_ip` to `nfct_feed_input`: every read is by index into the buffer
that the caller passed, and every loop is run turn by turn.
-/

namespace Netdiag
namespace Nfct

open Lib

/-! ## Attribute numbers -/

abbrev ctaTupleOrig : UInt16 := 1
abbrev ctaTupleReply : UInt16 := 2
abbrev ctaStatus : UInt16 := 3
abbrev ctaMark : UInt16 := 8
abbrev ctaId : UInt16 := 12
abbrev ctaZone : UInt16 := 18

abbrev ctaTupleIp : UInt16 := 1
abbrev ctaTupleProto : UInt16 := 2

abbrev ctaIpV4Src : UInt16 := 1
abbrev ctaIpV4Dst : UInt16 := 2
abbrev ctaIpV6Src : UInt16 := 3
abbrev ctaIpV6Dst : UInt16 := 4

abbrev ctaProtoNum : UInt16 := 1
abbrev ctaProtoSrcPort : UInt16 := 2
abbrev ctaProtoDstPort : UInt16 := 3

abbrev ipctnlMsgCtNew : UInt8 := 0
abbrev ipctnlMsgCtDelete : UInt8 := 2

/-- `NFCT_SYNTH_MAGIC`, the bytes of `NFCT`. -/
abbrev synthMagic : UInt32 := 0x4E464354

/-! ## Tuples -/

/-- `tuple_t`. -/
structure Tuple where
  srcIp : UInt32 := 0
  dstIp : UInt32 := 0
  srcIp6 : Vector UInt8 16 := Vector.replicate 16 0
  dstIp6 : Vector UInt8 16 := Vector.replicate 16 0
  srcPort : UInt16 := 0
  dstPort : UInt16 := 0
  proto : UInt8 := 0
  hasIp : Bool := false
  hasIp6 : Bool := false
  hasProto : Bool := false
  hasPorts : Bool := false
  deriving DecidableEq, Repr

section Walkers

variable (p : Platform) (D : List UInt8)

def ipv4FromNlattr (i : Nat) : Except Fault UInt32 :=
  rd32Be D i

/-- `plen = (uint16_t)(alen - 4)`. -/
def attrPlen (alen : UInt16) : UInt16 :=
  alen - 4

/-- `aligned = (alen + 3u) & ~3u`. -/
def attrAligned (alen : UInt16) : Nat :=
  ((alen.toUInt32 + 3) &&& ~~~3).toNat

/-- The loops of `parse_tuple_ip`, `parse_tuple_proto` and `parse_tuple` up to their test of the
type. -/
def tupleHead (data : Nat) (len : UInt16) : Nat → Except Fault (Head UInt16) :=
  nlaHead p D data len.toNat attrPlen attrAligned

/-- The loop of `parse_ct_attrs` up to its test of the type. -/
def ctHead (data len : Nat) : Nat → Except Fault (Head UInt16) :=
  nlaHead p D data len attrPlen attrAligned

/-- What the loop of `parse_tuple_ip` does with one attribute. -/
def tupleIpAttr (t : Tuple) (atype plen : UInt16) (payload : Nat) : Except Fault Tuple :=
  if atype = ctaIpV4Src ∧ plen ≥ 4 then do
    let ip ← ipv4FromNlattr D payload
    return { t with srcIp := ip, hasIp := true }
  else if atype = ctaIpV4Dst ∧ plen ≥ 4 then do
    let ip ← ipv4FromNlattr D payload
    return { t with dstIp := ip, hasIp := true }
  else if atype = ctaIpV6Src ∧ plen ≥ 16 then do
    let ip6 ← memcpy D payload 16
    return { t with srcIp6 := ip6, hasIp6 := true }
  else if atype = ctaIpV6Dst ∧ plen ≥ 16 then do
    let ip6 ← memcpy D payload 16
    return { t with dstIp6 := ip6, hasIp6 := true }
  else
    return t

def parseTupleIp (data : Nat) (len : UInt16) (t : Tuple) : Except Fault Tuple :=
  nlaWalk p len.toNat (tupleHead p D data len) (tupleIpAttr D) t

/-- What the loop of `parse_tuple_proto` does with one attribute. -/
def tupleProtoAttr (t : Tuple) (atype plen : UInt16) (payload : Nat) : Except Fault Tuple :=
  if atype = ctaProtoNum ∧ plen ≥ 1 then do
    let proto ← rd D payload
    return { t with proto := proto, hasProto := true }
  else if atype = ctaProtoSrcPort ∧ plen ≥ 2 then do
    let port ← rd16Be D payload
    return { t with srcPort := port, hasPorts := true }
  else if atype = ctaProtoDstPort ∧ plen ≥ 2 then do
    let port ← rd16Be D payload
    return { t with dstPort := port, hasPorts := true }
  else
    return t

def parseTupleProto (data : Nat) (len : UInt16) (t : Tuple) : Except Fault Tuple :=
  nlaWalk p len.toNat (tupleHead p D data len) (tupleProtoAttr D) t

/-- What the loop of `parse_tuple` does with one attribute. -/
def tupleAttr (t : Tuple) (atype plen : UInt16) (payload : Nat) : Except Fault Tuple :=
  if atype = ctaTupleIp then
    parseTupleIp p D payload plen t
  else if atype = ctaTupleProto then
    parseTupleProto p D payload plen t
  else
    return t

/-- `parse_tuple` clears the tuple before it walks the nest. -/
def parseTuple (data : Nat) (len : UInt16) : Except Fault Tuple :=
  nlaWalk p len.toNat (tupleHead p D data len) (tupleAttr p D) {}

/-! ## Conntrack attributes -/

/-- The variables of `parse_ct_attrs` that its loop assigns. -/
structure CtVars where
  ev : Event
  orig : Tuple := {}
  reply : Tuple := {}
  deriving DecidableEq, Repr

/-- What the loop of `parse_ct_attrs` does with one attribute. -/
def ctAttr (v : CtVars) (atype plen : UInt16) (payload : Nat) : Except Fault CtVars :=
  if atype = ctaTupleOrig then do
    let orig ← parseTuple p D payload plen
    return { v with orig := orig }
  else if atype = ctaTupleReply then do
    let reply ← parseTuple p D payload plen
    return { v with reply := reply }
  else if atype = ctaMark ∧ plen ≥ 4 then do
    let mark ← rd32Be D payload
    return { v with ev := { v.ev with mark := mark.toUInt64 } }
  else if atype = ctaZone ∧ plen ≥ 2 then do
    let zone ← rd16Be D payload
    return { v with ev := { v.ev with zone := zone.toUInt32 } }
  else if atype = ctaId ∧ plen ≥ 4 then do
    let id ← rd32Be D payload
    return { v with ev := { v.ev with id := id, hasId := true } }
  else if atype = ctaStatus ∧ plen ≥ 4 then do
    let status ← rd32Be D payload
    return { v with ev := { v.ev with status := status, hasStatus := true } }
  else
    return v

/-- The part of `parse_ct_attrs` after its loop: LAN is the original direction, WAN the reply
direction with its ends swapped. -/
def applyTuples (orig reply : Tuple) (ev : Event) : Event :=
  let ev :=
    if orig.hasIp then
      { ev with lanSrcIp := orig.srcIp, lanDstIp := orig.dstIp, hasLan := true, isIpv6 := false }
    else if orig.hasIp6 then
      { ev with lanSrcIp6 := orig.srcIp6, lanDstIp6 := orig.dstIp6, hasLan := true, isIpv6 := true }
    else ev
  let ev :=
    if orig.hasPorts then
      { ev with lanSrcPort := orig.srcPort, lanDstPort := orig.dstPort }
    else ev
  let ev :=
    if orig.hasProto then { ev with protocol := orig.proto }
    else if reply.hasProto then { ev with protocol := reply.proto }
    else ev
  let ev :=
    if reply.hasIp then
      { ev with wanSrcIp := reply.dstIp, wanDstIp := reply.srcIp, hasWan := true }
    else if reply.hasIp6 then
      { ev with wanSrcIp6 := reply.dstIp6, wanDstIp6 := reply.srcIp6, hasWan := true, isIpv6 := true }
    else ev
  if reply.hasPorts then
    { ev with wanSrcPort := reply.dstPort, wanDstPort := reply.srcPort }
  else ev

def parseCtAttrs (data len : Nat) (ev : Event) : Except Fault Event := do
  let v ← nlaWalk p len (ctHead p D data len) (ctAttr p D) { ev := ev }
  return applyTuples v.orig v.reply v.ev

end Walkers

/-! ## Messages -/

/-- The event as `parse_netlink` sets it up from the message header. -/
def eventOfHeader (nlType nlFlags : UInt16) : Event :=
  let msg := (nlType &&& 0xff).toUInt8
  if msg = ipctnlMsgCtDelete then
    { type := .eventDestroy, isDestroy := true }
  else if msg = ipctnlMsgCtNew then
    if nlFlags &&& 0x400 ≠ 0 then { type := .eventNew }
    else if nlFlags &&& 0x100 ≠ 0 then { type := .eventUpdate }
    else { type := .eventNew }
  else
    { type := .eventUpdate }

/-- What `parse_netlink` makes of an event that got no address: a `DESTROY` with an id stays one.
Both texts are shorter than the 96 bytes of `reason`. -/
def labelEvent (nlType : UInt16) (nlLen : UInt32) (ev : Event) : Event :=
  if !ev.hasLan && !ev.hasWan then
    if ev.isDestroy && ev.hasId then
      { ev with reason := s!"DESTROY id={ev.id} (no tuples)" }
    else
      { ev with
          type := .eventPartial
          reason := s!"nlmsg type={nlType} len={nlLen} (no address tuples)" }
  else ev

section Messages

variable (p : Platform) (D : List UInt8)

/-- One turn of the loop of `parse_netlink`, over the parser that it hands the attributes to. -/
def netlinkTurnWith (parseAttrs : Nat → Nat → Event → Except Fault Event) :
    Nat × Ctx → Except Fault (Turn (Nat × Ctx) Ctx)
  | (off, c) => do
      if p.add off 16 ≤ D.length then
        let nlLen ← rd32Le D off
        let nlType ← rd16Le D (off + 4)
        let nlFlags ← rd16Le D (off + 6)
        if nlLen < 16 ∨ D.length < p.add off nlLen.toNat then
          return .leave c
        else if nlLen < 16 + 4 then
          return .again (p.add off (nlaAlign nlLen).toNat, c)
        else
          -- The family is read here and not used.
          let _nfgenFamily ← rd D (off + 16)
          let attrOff := p.add (p.add off 16) 4
          let attrLen := (nlLen - 16 - 4).toNat
          let ev ←
            if p.add attrOff attrLen ≤ p.add off nlLen.toNat then
              parseAttrs attrOff attrLen (eventOfHeader nlType nlFlags)
            else
              pure (eventOfHeader nlType nlFlags)
          return .again (p.add off (nlaAlign nlLen).toNat,
            (qpush c (labelEvent nlType nlLen ev)).1)
      else
        return .leave c

/-- The turn as the code makes it. -/
def netlinkTurn : Nat × Ctx → Except Fault (Turn (Nat × Ctx) Ctx) :=
  netlinkTurnWith p D (parseCtAttrs p D)

/-- `parse_netlink`.  With more than `len + 2` turns it would stand at an offset where it has been
before, and go on forever. -/
def parseNetlink (c : Ctx) : Except Fault Ctx :=
  Loop.exec (netlinkTurn p D) .stuck (D.length + 2) (0, c)

/-- `try_synth`: the context and whether the buffer was taken as a synthetic frame. -/
def trySynth (c : Ctx) : Except Fault (Ctx × Bool) :=
  if D.length < 32 then
    return (c, false)
  else do
    let magic ← rd32Be D 0
    if magic ≠ synthMagic then
      return (c, false)
    else
      let kind ← rd D 4
      let type : EventType :=
        if kind = 1 then .eventNew
        else if kind = 2 then .eventUpdate
        else if kind = 3 then .eventDestroy
        else .eventPartial
      let protocol ← rd D 5
      let lanSrcIp ← rd32Be D 8
      let lanSrcPort ← rd16Be D 12
      let lanDstIp ← rd32Be D 14
      let lanDstPort ← rd16Be D 18
      let wanSrcIp ← rd32Be D 20
      let wanSrcPort ← rd16Be D 24
      let wanDstIp ← rd32Be D 26
      let wanDstPort ← rd16Be D 30
      let ev : Event :=
        { type, protocol, lanSrcIp, lanSrcPort, lanDstIp, lanDstPort,
          wanSrcIp, wanSrcPort, wanDstIp, wanDstPort, hasLan := true, hasWan := true }
      return ((qpush c ev).1, true)

end Messages

/-- `nfct_feed_input`; the arguments are the pointers, `none` for `NULL`. -/
def feedInput (p : Platform) (ctx : Option Ctx) (data : Option (List UInt8)) :
    Except Fault (Int × Option Ctx) :=
  match ctx, data with
  | some c, some D =>
      if D.length = 0 then
        return (0, some c)
      else do
        let (c, taken) ← trySynth D c
        if taken then
          return (0, some c)
        else
          let c ← parseNetlink p D c
          return (0, some c)
  | _, _ => return (-1, ctx)

end Nfct
end Netdiag
