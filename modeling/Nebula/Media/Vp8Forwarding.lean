import Nebula.Media.RtpHeader
import Nebula.Media.TransportFeedback
import Nebula.Media.Vp8
import Nebula.Lib.IndexMap

/- How a sender forwards the VP8 packets of several sources as one stream each: four counters of
   a packet are expanded, moved to where the stream of the source goes on, and truncated again. -/
namespace Vp8Forwarding
open ByteStrings RtpPacket
open TransportFeedback (expandTruncatedCounter)

section Ids

inductive Counter where
  | seqnum
  | timestamp
  | pictureId
  | tl0PicIdx
  deriving DecidableEq

/-- The bits of a counter in a packet. -/
def Counter.width : Counter → Nat
  | .seqnum => 16
  | .timestamp => 32
  | .pictureId => 15
  | .tl0PicIdx => 8

structure Vp8RewrittenIds where
  seqnum : Nat
  timestamp : Nat
  pictureId : Nat
  tl0PicIdx : Nat
  deriving DecidableEq

namespace Vp8RewrittenIds

def get (ids : Vp8RewrittenIds) : Counter → Nat
  | .seqnum => ids.seqnum
  | .timestamp => ids.timestamp
  | .pictureId => ids.pictureId
  | .tl0PicIdx => ids.tl0PicIdx

def combine (op : Nat → Nat → Option Nat) (left right : Vp8RewrittenIds) :
    Option Vp8RewrittenIds := do
  let seqnum ← op left.seqnum right.seqnum
  let timestamp ← op left.timestamp right.timestamp
  let pictureId ← op left.pictureId right.pictureId
  let tl0PicIdx ← op left.tl0PicIdx right.tl0PicIdx
  some ⟨seqnum, timestamp, pictureId, tl0PicIdx⟩

def sub64 (a b : Nat) : Option Nat := if b ≤ a then some (a - b) else none

def add64 (a b : Nat) : Option Nat := if a + b < 2 ^ 64 then some (a + b) else none

def checkedSub : Vp8RewrittenIds → Vp8RewrittenIds → Option Vp8RewrittenIds := combine sub64

def checkedAdd : Vp8RewrittenIds → Vp8RewrittenIds → Option Vp8RewrittenIds := combine add64

def max (left right : Vp8RewrittenIds) : Vp8RewrittenIds :=
  ⟨Nat.max left.seqnum right.seqnum, Nat.max left.timestamp right.timestamp,
    Nat.max left.pictureId right.pictureId, Nat.max left.tl0PicIdx right.tl0PicIdx⟩

/-- One of the results of expanding each counter: the full number or the new largest one. -/
def expand (truncated most : Vp8RewrittenIds) (result : Nat × Nat → Nat) : Vp8RewrittenIds :=
  ⟨result (expandTruncatedCounter truncated.seqnum most.seqnum 16),
    result (expandTruncatedCounter truncated.timestamp most.timestamp 32),
    result (expandTruncatedCounter truncated.pictureId most.pictureId 15),
    result (expandTruncatedCounter truncated.tl0PicIdx most.tl0PicIdx 8)⟩

theorem combine_some {op : Nat → Nat → Option Nat} {left right result : Vp8RewrittenIds} :
    combine op left right = some result ↔
      ∀ counter, op (left.get counter) (right.get counter) = some (result.get counter) := by
  constructor
  · intro done
    obtain ⟨seqnum, first, done⟩ := Option.bind_eq_some_iff.mp done
    obtain ⟨timestamp, second, done⟩ := Option.bind_eq_some_iff.mp done
    obtain ⟨pictureId, third, done⟩ := Option.bind_eq_some_iff.mp done
    obtain ⟨tl0PicIdx, fourth, done⟩ := Option.bind_eq_some_iff.mp done
    obtain rfl := Option.some.inj done
    intro counter
    cases counter with
    | seqnum => exact first
    | timestamp => exact second
    | pictureId => exact third
    | tl0PicIdx => exact fourth
  · intro each
    have first : op left.seqnum right.seqnum = some result.seqnum := each .seqnum
    have second : op left.timestamp right.timestamp = some result.timestamp := each .timestamp
    have third : op left.pictureId right.pictureId = some result.pictureId := each .pictureId
    have fourth : op left.tl0PicIdx right.tl0PicIdx = some result.tl0PicIdx := each .tl0PicIdx
    simp [combine, first, second, third, fourth]

theorem checkedSub_some {left right result : Vp8RewrittenIds}
    (done : left.checkedSub right = some result) (counter : Counter) :
    right.get counter ≤ left.get counter ∧
      result.get counter + right.get counter = left.get counter := by
  have each := combine_some.mp done counter
  unfold sub64 at each
  split at each
  · have value := Option.some.inj each
    omega
  · cases each

theorem checkedAdd_some {left right result : Vp8RewrittenIds}
    (done : left.checkedAdd right = some result) (counter : Counter) :
    result.get counter = left.get counter + right.get counter := by
  have each := combine_some.mp done counter
  unfold add64 at each
  split at each
  · exact (Option.some.inj each).symm
  · cases each

@[simp] theorem get_max (left right : Vp8RewrittenIds) (counter : Counter) :
    (left.max right).get counter = Nat.max (left.get counter) (right.get counter) := by
  cases counter <;> rfl

theorem get_expand (truncated most : Vp8RewrittenIds) (result : Nat × Nat → Nat)
    (counter : Counter) :
    (expand truncated most result).get counter =
      result (expandTruncatedCounter (truncated.get counter) (most.get counter) counter.width) := by
  cases counter <;> rfl

end Vp8RewrittenIds

end Ids

section Forwarding

structure ForwardState where
  incomingSsrc : Nat
  outRtpPacket : RtpHeader
  maxIncoming : Vp8RewrittenIds
  firstIncoming : Vp8RewrittenIds
  firstOutgoing : Vp8RewrittenIds

theorem template_csrc : ([] : Bytes).length = ((0x90 : UInt8) &&& CC_MASK).toNat * 4 := rfl

theorem template_block : ExtensionBlock 0x90 [0xbe, 0xde, 0, 1, 0, 0x31, 0, 0] :=
  ⟨[0xbe, 0xde], [0, 0x31, 0, 0], 1, rfl, rfl, by decide, rfl⟩

/-- The packet that the others are made from: its own SSRC, no numbers of meaning, and the
    extension that is to have the number for the transport feedback. -/
def templatePacket (ssrc : UInt32) (typeNumber : UInt8) (random : UInt16 × UInt32) : RtpHeader where
  first := 0x90
  second := RtpHeader.typed 0 typeNumber
  sequence := random.1
  timestamp := random.2
  ssrc := ssrc
  csrc := []
  block := [0xbe, 0xde, 0, 1, 0, 0x31, 0, 0]
  csrcLength := template_csrc
  blockValid := template_block

def ForwardState.new (ssrc : UInt32) (typeNumber : UInt8) (random : UInt16 × UInt32) :
    ForwardState :=
  ⟨0, templatePacket ssrc typeNumber random, ⟨0, 0, 0, 0⟩, ⟨0, 0, 0, 0⟩, ⟨0, 0, 0, 0⟩⟩

/-- What becomes of the state and of the ids of a packet; without outgoing ids it is not sent. -/
structure Rewritten where
  forward : ForwardState
  maxOutgoing : Vp8RewrittenIds
  switched : Bool
  outgoing : Option Vp8RewrittenIds

def forwarded (forward : ForwardState) (maxOutgoing : Vp8RewrittenIds) (switched : Bool)
    (ids : Vp8RewrittenIds) : Rewritten :=
  let incoming := ids.expand forward.maxIncoming Prod.fst
  let forward := { forward with maxIncoming := ids.expand forward.maxIncoming Prod.snd }
  match (incoming.checkedSub forward.firstIncoming).bind forward.firstOutgoing.checkedAdd with
  | none => ⟨forward, maxOutgoing, switched, none⟩
  | some outgoing => ⟨forward, maxOutgoing.max outgoing, switched, some outgoing⟩

/-- A packet on another SSRC switches the layer: its own ids are the first ones, and they go on
    after all that was sent. -/
def rewrite (forward : ForwardState) (maxOutgoing : Vp8RewrittenIds) (ssrc : Nat)
    (ids : Vp8RewrittenIds) : Rewritten :=
  if ssrc ≠ forward.incomingSsrc then
    match maxOutgoing.checkedAdd ⟨2, 1, 1, 1⟩ with
    | none => ⟨{ forward with incomingSsrc := ssrc }, maxOutgoing, false, none⟩
    | some firstOutgoing =>
      forwarded { forward with
        incomingSsrc := ssrc, firstIncoming := ids, firstOutgoing, maxIncoming := ids }
        firstOutgoing true ids
  else forwarded forward maxOutgoing false ids

/-- The truncated ids of a packet, where it has all of them. -/
def incomingIds (packet : Bytes) : Outcome (Option Vp8RewrittenIds) := do
  let payload ← getPayload packet
  match Vp8.read payload with
  | none => pure none
  | some vp8 =>
    match vp8.pictureId, vp8.tl0PicIdx with
    | some pictureId, some tl0PicIdx => do
      let seqnum ← getSequence packet
      let timestamp ← getTimestamp packet
      pure (some ⟨seqnum, timestamp, pictureId, tl0PicIdx⟩)
    | _, _ => pure none

def outgoingPacket (template : Bytes) (outgoing : Vp8RewrittenIds) (marker : Bool)
    (payload : Bytes) : Outcome Bytes := do
  let packet ← setSequence template (outgoing.seqnum % 2 ^ 16)
  let packet ← setTimestamp packet (outgoing.timestamp % 2 ^ 32)
  let packet ← setMarker packet marker
  let packet ← setPaylod packet payload
  let offset ← payloadOffset packet
  let header ← sliceTo packet offset
  let payload ← getPayload packet
  let payload ← Vp8.modifyHeader payload (outgoing.pictureId % 2 ^ 16) (outgoing.tl0PicIdx % 2 ^ 8)
  pure (header ++ payload)

def sentPacket (template : RtpHeader) (packet : Bytes) :
    Option Vp8RewrittenIds → Outcome (Option Bytes)
  | none => pure none
  | some outgoing => do
    let marker ← hasMarker packet
    let payload ← getPayload packet
    let sent ← outgoingPacket template.bytes outgoing marker payload
    pure (some sent)

end Forwarding

section Sender
variable {Uuid : Type} [DecidableEq Uuid]

structure VideoStreamSenderLocal (Uuid : Type) where
  typeNumber : UInt8
  forwardStates : IndexMap Uuid ForwardState
  maxOutgoing : Vp8RewrittenIds

/-- What happened to a packet that had its ids: those it came with and, if it was sent, those it
    left with, the packet that was sent, and the largest ids sent before and after it. -/
structure Record (Uuid : Type) where
  src : Uuid
  ssrc : Nat
  incoming : Vp8RewrittenIds
  switched : Bool
  outgoing : Option Vp8RewrittenIds
  sent : Option Bytes
  before : Vp8RewrittenIds
  after : Vp8RewrittenIds
  deriving DecidableEq

def VideoStreamSenderLocal.new (typeNumber : UInt8) : VideoStreamSenderLocal Uuid :=
  ⟨typeNumber, IndexMap.empty, ⟨0, 0, 0, 0⟩⟩

variable (ssrcOf : Uuid → UInt32) (random : Uuid → UInt16 × UInt32)

def VideoStreamSenderLocal.forward (sender : VideoStreamSenderLocal Uuid) (src : Uuid) :
    ForwardState :=
  (sender.forwardStates.entries.lookup src).getD
    (ForwardState.new (ssrcOf src) sender.typeNumber (random src))

/-- A packet without its ids leaves nothing but the state of its source. -/
def receiveRtp (sender : VideoStreamSenderLocal Uuid) (src : Uuid) (packet : Bytes) :
    Outcome (VideoStreamSenderLocal Uuid × Option (Record Uuid)) := do
  let forward := sender.forward ssrcOf random src
  let ids ← incomingIds packet
  match ids with
  | none => pure ({ sender with forwardStates := sender.forwardStates.insert src forward }, none)
  | some incoming => do
    let ssrc ← getSsrc packet
    let rewritten := rewrite forward sender.maxOutgoing ssrc incoming
    let sent ← sentPacket forward.outRtpPacket packet rewritten.outgoing
    pure ({ sender with
        forwardStates := sender.forwardStates.insert src rewritten.forward
        maxOutgoing := rewritten.maxOutgoing },
      some {
        src, ssrc, incoming, sent
        switched := rewritten.switched
        outgoing := rewritten.outgoing
        before := sender.maxOutgoing
        after := rewritten.maxOutgoing })

end Sender

section Wire

theorem incomingIds_some {packet : Bytes} {ids : Vp8RewrittenIds}
    (read : incomingIds packet = .ok (some ids)) :
    ∃ payload header, getPayload packet = .ok payload ∧ Vp8.read payload = some header ∧
      header.pictureId = some ids.pictureId ∧ header.tl0PicIdx = some ids.tl0PicIdx ∧
      getSequence packet = .ok ids.seqnum ∧ getTimestamp packet = .ok ids.timestamp := by
  obtain ⟨payload, given, read⟩ := bind_ok_inv read
  cases parsed : Vp8.read payload with
  | none =>
    rw [parsed] at read
    cases read
  | some header =>
    rw [parsed] at read
    simp only at read
    split at read
    · rename_i pictureId tl0PicIdx id idx
      obtain ⟨seqnum, first, read⟩ := bind_ok_inv read
      obtain ⟨timestamp, second, read⟩ := bind_ok_inv read
      obtain rfl := Option.some.inj (Except.ok.inj read)
      exact ⟨payload, header, given, parsed, id, idx, first, second⟩
    · cases read

theorem incomingIds_of_payload {header : RtpHeader} {payload : Bytes} {vp8 : Vp8.ParsedHeader}
    (parsed : Vp8.read payload = some vp8) {pictureId tl0PicIdx : Nat}
    (id : vp8.pictureId = some pictureId) (idx : vp8.tl0PicIdx = some tl0PicIdx) :
    incomingIds (header.bytes ++ payload) =
      .ok (some ⟨header.sequence.toNat, header.timestamp.toNat, pictureId, tl0PicIdx⟩) := by
  unfold incomingIds
  rw [getPayload_header, ok_bind, parsed]
  simp only [id, idx, getSequence_header, getTimestamp_header, ok_bind]
  rfl

/-- The packet made for some ids: where the payload has both ids, it has the new ones. -/
theorem outgoingPacket_ok (template : RtpHeader) (outgoing : Vp8RewrittenIds) (marker : Bool)
    {payload : Bytes} {vp8 : Vp8.ParsedHeader} (parsed : Vp8.read payload = some vp8)
    {pictureId tl0PicIdx : Nat} (id : vp8.pictureId = some pictureId)
    (idx : vp8.tl0PicIdx = some tl0PicIdx) :
    ∃ sent ids, outgoingPacket template.bytes outgoing marker payload = .ok sent ∧
      incomingIds sent = .ok (some ids) ∧ hasMarker sent = .ok marker ∧
      ∀ counter, ids.get counter = outgoing.get counter % 2 ^ counter.width := by
  obtain ⟨modified, done, reread⟩ := Vp8.read_modifyHeader parsed id idx
    (outgoing.pictureId % 2 ^ 16) (outgoing.tl0PicIdx % 2 ^ 8)
  have sequence : (UInt16.ofNat outgoing.seqnum).toNat = outgoing.seqnum % 2 ^ 16 :=
    UInt16.toNat_ofNat'
  have timestamp : (UInt32.ofNat outgoing.timestamp).toNat = outgoing.timestamp % 2 ^ 32 :=
    UInt32.toNat_ofNat'
  let first : RtpHeader := { template with sequence := UInt16.ofNat outgoing.seqnum }
  let second : RtpHeader := { first with timestamp := UInt32.ofNat outgoing.timestamp }
  let header : RtpHeader := { second with second := RtpHeader.marked second.second marker }
  have made : outgoingPacket template.bytes outgoing marker payload =
      .ok (header.bytes ++ modified) := by
    have setFirst := setSequence_header template [] (UInt16.ofNat outgoing.seqnum)
    have setSecond := setTimestamp_header first [] (UInt32.ofNat outgoing.timestamp)
    have setThird := setMarker_header second [] marker
    have offset := payloadOffset_header header []
    rw [sequence, List.append_nil, List.append_nil] at setFirst
    rw [timestamp, List.append_nil, List.append_nil] at setSecond
    rw [List.append_nil, List.append_nil] at setThird
    rw [List.append_nil] at offset
    have whole : setPaylod header.bytes payload = .ok (header.bytes ++ payload) := by
      unfold setPaylod
      rw [offset, ok_bind, List.take_length]
      rfl
    unfold outgoingPacket
    rw [setFirst, ok_bind, setSecond, ok_bind, setThird, ok_bind, whole, ok_bind,
      payloadOffset_header, ok_bind, sliceTo_append, ok_bind, getPayload_header, ok_bind, done,
      ok_bind]
    rfl
  refine ⟨header.bytes ++ modified, _, made, incomingIds_of_payload reread rfl rfl,
    hasMarker_header second modified marker, ?_⟩
  intro counter
  cases counter with
  | seqnum => exact sequence
  | timestamp => exact timestamp
  | pictureId => exact Nat.mod_mod_of_dvd outgoing.pictureId (by decide : 2 ^ 15 ∣ 2 ^ 16)
  | tl0PicIdx => exact Nat.mod_mod outgoing.tl0PicIdx 256

end Wire

end Vp8Forwarding
