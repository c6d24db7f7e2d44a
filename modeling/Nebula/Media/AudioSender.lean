import Nebula.Media.Srtp

/- The sending half of an audio stream: one template packet that every media
   packet is made from, a queue of DTMF digits that replace the media payload
   while they last, and the local SRTP context. -/
namespace AudioSender
open ByteStrings Srtp

def DTMF_DIGITS : List String :=
  ["0", "1", "2", "3", "4", "5", "6", "7", "8", "9", "*", "#", "A", "B", "C", "D", "X"]

/-- The characters `Tone::from_char` knows. -/
def TONES : List Char :=
  ['0', '1', '2', '3', '4', '5', '6', '7', '8', '9', 'A', 'a', 'B', 'b', 'C', 'c', 'D', 'd',
    '*', '#']

def dtmfByte (dtmf : String) : Option UInt8 :=
  (DTMF_DIGITS.findIdx? fun digit => dtmf = digit).map UInt8.ofNat

structure Sender where
  rtpPacket : Bytes
  rate : Nat
  ptime : Nat
  tsLen : Nat
  dtmfRtpmap : Option UInt8
  dtmf : List (Option Nat × List Bytes)
  crypto : Option CryptoContext

/- RtpPacket::new fills the header with random numbers, the type and the SSRC
   are set by the stream. -/
def StreamLocalState.new (seq ts ssrc : Nat) (typeNumber : UInt8) (rate ptime : Nat)
    (dtmfRtpmap : Option UInt8) (crypto : Option CryptoContext) : Sender where
  rtpPacket := [0x80, typeNumber &&& RtpPacket.PT_MASK] ++ bytes16 seq ++ bytes32 ts ++ bytes32 ssrc
  rate := rate
  ptime := ptime
  tsLen := rate / 1000 * ptime % 4294967296
  dtmfRtpmap := dtmfRtpmap
  dtmf := []
  crypto := crypto

/-- Five payloads of growing duration, stored last first; the last one to be
    sent carries the end bit. Durations wrap at 16 bits. -/
def dtmfPayloads (id : UInt8) (duration : Nat) : List Bytes :=
  ([id, 10 + 128] ++ bytes16 (duration * 5 % 65536)) ::
    ([4, 3, 2, 1].map fun i => [id, 10] ++ bytes16 (duration * i % 65536))

/- A stream without a telephone-event mapping plays a tone instead. -/
def sendDtmf (sender : Sender) (dtmf : String) : Sender :=
  if dtmf.toList.head?.all fun c => c ∉ TONES then sender
  else if sender.dtmfRtpmap.isNone then sender
  else match dtmfByte dtmf with
    | none => sender
    | some id =>
      { sender with dtmf := sender.dtmf ++
          [(none, dtmfPayloads id (sender.rate / 1000 * sender.ptime % 65536))] }

/- Payloads are popped from the back; the timestamp of the first one is kept for
   the whole digit. -/
def getSendingDtmf (sender : Sender) (ts : Nat) : Option (Bool × Nat × Bytes) × Sender :=
  match sender.dtmf with
  | [] => (none, sender)
  | (dtmfTs, payloads) :: queue =>
    (payloads.getLast?.map fun payload => (dtmfTs.isNone, dtmfTs.getD ts, payload),
      { sender with
        dtmf := if payloads.dropLast = [] then queue
          else (some (dtmfTs.getD ts), payloads.dropLast) :: queue })

def dtmfPacket (packet : Bytes) (pt : UInt8) (ts : Nat) (payload : Bytes) : Outcome Bytes := do
  let typed ← RtpPacket.setPayloadType packet pt
  let stamped ← RtpPacket.setTimestamp typed ts
  RtpPacket.setPaylod stamped payload

def markFirst (first : Bool) (packet : Bytes) : Outcome Bytes :=
  if first then RtpPacket.setMarker packet true else .ok packet

/- The packets of one DTMF payload. After the end payload two more are cut from
   the local packet, each with the next sequence number. -/
def dtmfPackets (packet : Bytes) (pt : UInt8) (first : Bool) (ts : Nat) (payload : Bytes) :
    Outcome (List Bytes) := do
  let filled ← dtmfPacket packet pt ts payload
  let marked ← markFirst first filled
  let flags ← byteAt payload 1
  if 128 < flags then
    let second ← RtpPacket.nextSeq marked
    let repeated ← dtmfPacket second pt ts payload
    let third ← RtpPacket.nextSeq second
    let again ← dtmfPacket third pt ts payload
    pure [marked, repeated, again]
  else pure [marked]

/-- A packet before and after encryption, with the counter it was encrypted under. -/
structure Emission where
  plain : Bytes
  roc : Option Nat
  wire : Bytes
  deriving DecidableEq, Repr

def encryptRtp (prim : Primitives) (sender : Sender) (redis : RocStore) (packet : Bytes) :
    Outcome Emission × Sender × RocStore :=
  match sender.crypto with
  | none => (.ok ⟨packet, none, packet⟩, sender, redis)
  | some ctx =>
    match ctx.updateRoc redis packet with
    | .error fault => (.error fault, sender, redis)
    | .ok (roc, ctx', redis') =>
      ((Srtp.encryptRtp prim ctx'.state roc packet).map fun wire => ⟨packet, some roc, wire⟩,
        { sender with crypto := some ctx' }, redis')

def encryptAll (prim : Primitives) (sender : Sender) (redis : RocStore) :
    List Bytes → Outcome (List Emission) × Sender × RocStore
  | [] => (.ok [], sender, redis)
  | packet :: rest =>
    match encryptRtp prim sender redis packet with
    | (.error fault, sender', redis') => (.error fault, sender', redis')
    | (.ok emission, sender', redis') =>
      let (others, final) := encryptAll prim sender' redis' rest
      (others.map fun emissions => emission :: emissions, final)

/-- The template after one step of the media clock. -/
def nextRtpPacket (sender : Sender) : Outcome Sender := do
  let packet ← RtpPacket.next sender.rtpPacket sender.tsLen
  pure { sender with rtpPacket := packet }

/- What a call is about to send in the clear, and the sender with the digit queue
   advanced. -/
def rtpPackets (sender : Sender) (payload : Bytes) : Outcome (List Bytes) × Sender :=
  match RtpPacket.getTimestamp sender.rtpPacket with
  | .error fault => (.error fault, sender)
  | .ok now =>
    match getSendingDtmf sender now with
    | (some (first, ts, dtmfPayload), sender') =>
      (dtmfPackets sender.rtpPacket (sender.dtmfRtpmap.getD 101) first ts dtmfPayload, sender')
    | (none, sender') =>
      ((RtpPacket.setPaylod sender.rtpPacket payload).map fun packet => [packet], sender')

def getRtpPackets (prim : Primitives) (sender : Sender) (redis : RocStore) (payload : Bytes) :
    Outcome (List Emission) × Sender × RocStore :=
  match nextRtpPacket sender with
  | .error fault => (.error fault, sender, redis)
  | .ok advanced =>
    match rtpPackets advanced payload with
    | (.error fault, sender') => (.error fault, sender', redis)
    | (.ok packets, sender') => encryptAll prim sender' redis packets

inductive Event where
  | sendDtmf (dtmf : String)
  | getRtpPackets (payload : Bytes)
  deriving DecidableEq, Repr

/-- The packets of a run in order. A call that fails emits nothing. -/
def emitted (prim : Primitives) (sender : Sender) (redis : RocStore) : List Event → List Emission
  | [] => []
  | .sendDtmf dtmf :: rest => emitted prim (sendDtmf sender dtmf) redis rest
  | .getRtpPackets payload :: rest =>
    let (result, sender', redis') := getRtpPackets prim sender redis payload
    (match result with
      | .ok emissions => emissions
      | .error _ => []) ++ emitted prim sender' redis' rest

end AudioSender
