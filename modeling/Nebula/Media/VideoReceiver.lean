import Nebula.Media.RtpHeader
import Nebula.Media.VideoAllocation

/- How the receiver of a video stream takes a decrypted packet: the RID in its extensions, the
   recovery of retransmissions, the layer of the RID and the table of layers it publishes. -/
namespace VideoReceiver
open ByteStrings RtpPacket
open Vp8 (PixelSize ParsedHeader)
open VideoAllocation (IncomingVideoInfo)

structure Extension where
  id : Nat
  payload : Bytes
  deriving DecidableEq

/-- A packet as the RTP library reads it. -/
structure Rtp where
  ssrc : UInt32
  sequenceNumber : UInt16
  payloadType : UInt8
  extensions : List Extension
  payload : Bytes
  deriving DecidableEq

/-- Samples of (time, bits), the newest first; times are in nanoseconds. -/
structure DataRateTracker where
  history : List (Nat × Nat) := []
  accumulatedSize : Nat := 0
  rate : Option Nat := none
  deriving DecidableEq

def MAX_DURATION : Nat := 5000000000
def MIN_DURATION : Nat := 500000000

structure IncomingVideoState where
  ssrc : UInt32
  size : PixelSize
  lastSendToDestinations : Option Nat
  lastZeroSizePli : Option Nat
  rateTracker : DataRateTracker
  lastUpdate : Nat
  deriving DecidableEq

structure VideoStreamReceiver where
  typeNumber : UInt8
  hasCodec : Bool
  muted : Bool
  ridSsrcs : IndexMap String UInt32
  incomingLayers : IndexMap String IncomingVideoState
  deriving DecidableEq

/-- The readings of the clock while a packet is handled: when it came, for a new layer, for the
    two ages of a layer, and the second in which the table is published. -/
structure Readings where
  now : Nat
  created : Nat
  zeroSize : Nat
  layerInfo : Nat
  updated : Nat

abbrev LayersInfo := List (String × Nat × IncomingVideoInfo)

/-- A packet that came to a layer, as it goes on to the destinations. -/
structure Handled where
  rid : String
  ssrc : UInt32
  packet : Bytes
  isKeyFrame : Bool
  pli : Option UInt32
  published : Option LayersInfo
  deriving DecidableEq

section Tracker

def DataRateTracker.push (tracker : DataRateTracker) (size time : Nat) : DataRateTracker :=
  { tracker with
    history := (time, size) :: tracker.history
    accumulatedSize := tracker.accumulatedSize + size }

/-- Drops the old samples and takes the rate of the others; the quotient is one of doubles. -/
def DataRateTracker.update (quotient : Nat → Nat → Nat) (tracker : DataRateTracker) (now : Nat) :
    DataRateTracker :=
  let deadline := now - MAX_DURATION
  let countToRemove :=
    (tracker.history.reverse.takeWhile fun sample => decide (sample.1 < deadline)).length
  let kept := tracker.history.take (tracker.history.length - countToRemove)
  let removed := tracker.history.drop (tracker.history.length - countToRemove)
  let accumulatedSize := removed.foldl (fun size sample => size - sample.2) tracker.accumulatedSize
  let duration := (kept.getLast?.map fun oldest => now - oldest.1).getD 0
  { history := kept
    accumulatedSize
    rate := if MIN_DURATION ≤ duration then some (quotient accumulatedSize duration) else none }

end Tracker

section Receive

def IncomingVideoState.new (ssrc : UInt32) (created : Nat) : IncomingVideoState :=
  ⟨ssrc, ⟨0, 0⟩, none, none, {}, created⟩

def VideoStreamReceiver.new (typeNumber : UInt8) (hasCodec : Bool) : VideoStreamReceiver :=
  ⟨typeNumber, hasCodec, false, IndexMap.empty, IndexMap.empty⟩

def fromUtf8 (payload : Bytes) : Option String := String.fromUTF8? ⟨payload.toArray⟩

/-- The last RID among the extensions, and the streams of the RIDs of id 10, which is that of
    packets that are not retransmitted. The number of id 3 is for the transport feedback; an
    extension too short for it panics. -/
def readExtensions (ssrc : UInt32) :
    List Extension → String × IndexMap String UInt32 → Outcome (String × IndexMap String UInt32)
  | [], found => .ok found
  | ext :: rest, found =>
    if ext.id = 10 ∨ ext.id = 11 then
      match fromUtf8 ext.payload with
      | some rid =>
        readExtensions ssrc rest (rid, if ext.id = 10 then found.2.insert rid ssrc else found.2)
      | none => readExtensions ssrc rest found
    else if ext.id = 3 then do
      let _ ← readU16 ext.payload 0
      readExtensions ssrc rest found
    else readExtensions ssrc rest found

variable (unmarshal : Bytes → Option Rtp) (quotient : Nat → Nat → Nat)

/-- A retransmission: the payload begins with the sequence number it had. -/
def recoverRtx (typeNumber : UInt8) (original : Option UInt32) (packet : Bytes) (payload : Bytes) :
    Outcome (Option (Bytes × Rtp)) := do
  let seq ← readU16 payload 0
  let vec ← setSequence packet seq
  let vec ← setPayloadType vec typeNumber
  let offset ← payloadOffset vec
  let packet := vec.take offset ++ payload.drop 2
  match unmarshal packet, original with
  | none, _ => pure none
  | some rewritten, none => pure (some (packet, rewritten))
  | some _, some ssrc =>
    -- the stream that the retransmission is of, where it is known
    let packet ← setPacketSsrc packet ssrc.toNat
    pure ((unmarshal packet).map fun rewritten => (packet, rewritten))

/-- The packet to go on with; types are bytes, and the one after 255 is 0. -/
def originalPacket (typeNumber : UInt8) (original : Option UInt32) (packet : Bytes) (rtp : Rtp) :
    Outcome (Option (Bytes × Rtp)) :=
  if rtp.payloadType ≠ typeNumber then
    if rtp.payloadType = typeNumber + 1 ∧ 2 < rtp.payload.length
    then recoverRtx unmarshal typeNumber original packet rtp.payload
    else pure none
  else pure (some (packet, rtp))

def older (time : Option Nat) (reading : Nat) : Bool :=
  (time.map fun time => decide (1000 < (reading - time) / 1000000)).getD true

/-- A frame header that says another size; the table is then due. -/
def IncomingVideoState.sized (layer : IncomingVideoState) (header : Option ParsedHeader) :
    IncomingVideoState :=
  match header.bind ParsedHeader.resolution with
  | none => layer
  | some res =>
    if layer.size ≠ res then { layer with size := res, lastSendToDestinations := none } else layer

/-- A layer without a size, for which a key frame is asked; when that was is not kept. -/
def IncomingVideoState.asks (layer : IncomingVideoState) (readings : Readings) : Bool :=
  layer.size.height == 0 && older layer.lastZeroSizePli readings.zeroSize

def IncomingVideoState.asked (layer : IncomingVideoState) (readings : Readings) :
    IncomingVideoState :=
  if layer.asks readings then { layer with lastSendToDestinations := some readings.now } else layer

def IncomingVideoState.sent (layer : IncomingVideoState) (readings : Readings) :
    IncomingVideoState :=
  if older layer.lastSendToDestinations readings.layerInfo then
    { layer with
      lastSendToDestinations := some readings.now
      rateTracker := layer.rateTracker.update quotient readings.now
      lastUpdate := readings.updated }
  else layer

/-- The table that is published, for all layers with the stream of the packet at hand. -/
def layersInfo (ssrc : UInt32) (layers : List (String × IncomingVideoState)) : LayersInfo :=
  layers.map fun entry => (entry.1, entry.2.lastUpdate,
    { ssrc := ssrc.toNat, size := entry.2.size, rid := entry.1, rate := entry.2.rateTracker.rate })

/-- The layer of a RID takes a packet. -/
def takePacket (receiver : VideoStreamReceiver) (rid : String) (packet : Bytes) (rtp : Rtp)
    (readings : Readings) : VideoStreamReceiver × Handled :=
  let layer := (receiver.incomingLayers.entries.lookup rid).getD
    (IncomingVideoState.new rtp.ssrc readings.created)
  let layer := { layer with
    rateTracker := layer.rateTracker.push (packet.length * 8) readings.now }
  let header := Vp8.read rtp.payload
  let layer := layer.sized header
  let pli := if layer.asks readings then some rtp.ssrc else none
  let layer := layer.asked readings
  let due := older layer.lastSendToDestinations readings.layerInfo
  let incomingLayers := receiver.incomingLayers.insert rid (layer.sent quotient readings)
  ({ receiver with incomingLayers },
    { rid, ssrc := rtp.ssrc, packet
      isKeyFrame := (header.map ParsedHeader.isKeyFrame).getD false
      pli
      published := if due then some (layersInfo rtp.ssrc incomingLayers.entries) else none })

/-- Nothing is handled where the stream has a codec of its own, is muted, or the packet is
    refused; the streams of the RIDs are kept even then. -/
def receiveRtpPacket (receiver : VideoStreamReceiver) (packet : Bytes) (readings : Readings) :
    Outcome (VideoStreamReceiver × Option Handled) :=
  if receiver.hasCodec ∨ receiver.muted then pure (receiver, none)
  else
    match unmarshal packet with
    | none => pure (receiver, none)
    | some rtp => do
      let found ← readExtensions rtp.ssrc rtp.extensions ("", receiver.ridSsrcs)
      let receiver := { receiver with ridSsrcs := found.2 }
      let original ← originalPacket unmarshal receiver.typeNumber (found.2.entries.lookup found.1)
        packet rtp
      match original with
      | none => pure (receiver, none)
      | some (packet, rtp) =>
        let taken := takePacket quotient receiver found.1 packet rtp readings
        pure (taken.1, some taken.2)

end Receive

end VideoReceiver
