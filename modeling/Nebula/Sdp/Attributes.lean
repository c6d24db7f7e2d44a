import Nebula.Lib.ByteStrings
import Nebula.Sdp.Description

/- What is read from the attributes of a description: keys, codecs, tracks, and how to connect. -/
namespace Sdp
open TextScan TextParts DecimalText
open SipText (Text dropBytes)
open ByteStrings (Bytes)

section Lookup

def attribute? (attrs : List Attribute) (key : Text) : Option Text :=
  (attrs.find? fun attr => attr.key = key).bind Attribute.value

def MediaDescription.mid (media : MediaDescription) : Option Text :=
  attribute? media.attributes "mid".toList

structure Ice where
  ufrag : Text
  pwd : Text

def extractIce (attrs : List Attribute) : Option Ice :=
  (attribute? attrs "ice-ufrag".toList).bind fun ufrag =>
    (attribute? attrs "ice-pwd".toList).map fun pwd => { ufrag, pwd }

structure Dtls where
  fingerprint : Text
  hash : Text
  setup : Text

def extractDtls (attrs : List Attribute) : Option Dtls :=
  (attribute? attrs "setup".toList).bind fun setup =>
    (attribute? attrs "fingerprint".toList).bind fun fingerprint =>
      let parts := cut ' ' fingerprint
      parts.2.map fun fingerprint => { fingerprint, hash := parts.1, setup }

def SessionDescription.ice (sdp : SessionDescription) : Option Ice :=
  (extractIce sdp.attributes).or
    (sdp.mediaDescriptions.findSome? fun media => extractIce media.attributes)

def SessionDescription.dtls (sdp : SessionDescription) : Option Dtls :=
  (extractDtls sdp.attributes).or
    (sdp.mediaDescriptions.findSome? fun media => extractDtls media.attributes)

/-- The names after BUNDLE, which a slice takes off. -/
def SessionDescription.bundle (sdp : SessionDescription) : Outcome (Option (List Text)) :=
  match sdp.attributes.find? fun attr =>
    attr.key = "group".toList && attr.value.any ("BUNDLE ".toList.isPrefixOf ·) with
  | some attr =>
    (orFault .panic (dropBytes 7 (attr.value.getD []))).map fun names => some (names.splitOn ' ')
  | none => .ok none

end Lookup

section Keys

structure Crypto where
  tag : Text
  suite : Text
  tagLen : Nat
  masterKey : Bytes
  salt : Bytes

variable (base64 : Text → Option Bytes)

def Crypto.fromStr (s : Text) : Outcome Crypto :=
  match s.splitOn ' ' with
  | [tag, suite, params] =>
    (orFault .parseInt (readBelow (2 ^ 64) ((suite.splitOn '_').getLastD []))).bind fun bits =>
      (orFault .panic (dropBytes 7 ((params.splitOn '|').headD []))).bind fun encoded =>
        (orFault .decode (base64 encoded)).bind fun key =>
          if key.length ≠ 30 then .error .invalidSdp
          else .ok { tag, suite, tagLen := bits / 8, masterKey := key.take 16, salt := key.drop 16 }
  | _ => .error .invalidSdp

/-- A key that is not read is passed over, unless reading it panics. -/
def MediaDescription.cryptos (media : MediaDescription) : Outcome (List Crypto) :=
  media.attributes.foldlM (fun cryptos attr =>
    if attr.key = "crypto".toList then
      match Crypto.fromStr base64 (attr.value.getD []) with
      | .ok crypto => .ok (cryptos ++ [crypto])
      | .error .panic => .error .panic
      | .error _ => .ok cryptos
    else .ok cryptos) []

end Keys

section Tracks

structure MediaStreamTrack where
  id : Text
  mid : Text
  streamId : Text
  ssrc : Nat
  mediaType : MediaType

/-- What the attributes said so far of a track, and the sources that repair others. -/
structure TrackState where
  repairFlows : List Nat := []
  streamId : Text := []
  trackId : Text := []
  ssrc : Nat := 0

def readU32 (text : Text) : Option Nat := readBelow 4294967296 text

def TrackState.readGroup (state : TrackState) (value : Text) : TrackState :=
  match value.splitOn ' ' with
  | [kind, _, repair] =>
    if kind = "FID".toList then
      match readU32 repair with
      | some flow => { state with repairFlows := flow :: state.repairFlows }
      | none => state
    else state
  | _ => state

def TrackState.readMsid (state : TrackState) (value : Text) : TrackState :=
  match value.splitOn ' ' with
  | [streamId, trackId] => { state with streamId, trackId }
  | _ => state

def TrackState.readSsrc (state : TrackState) (value : Text) : Outcome TrackState :=
  let parts := value.splitOn ' '
  match readU32 (parts.headD []) with
  | none => .ok state
  | some ssrc =>
    if ssrc ∈ state.repairFlows then .ok state
    else
      let state := { state with ssrc }
      match parts with
      | [_, msid, trackId] =>
        if "msid:".toList.isPrefixOf msid then
          (orFault .panic (dropBytes 5 msid)).map fun streamId => { state with streamId, trackId }
        else .ok state
      | _ => .ok state

def TrackState.readAttribute (state : TrackState) (attr : Attribute) : Outcome TrackState :=
  let value := attr.value.getD []
  if attr.key = "ssrc-group".toList then .ok (state.readGroup value)
  else if attr.key = "msid".toList then .ok (state.readMsid value)
  else if attr.key = "ssrc".toList then state.readSsrc value
  else .ok state

def MediaDescription.streamTrack (media : MediaDescription) : Outcome MediaStreamTrack :=
  (media.attributes.foldlM TrackState.readAttribute {}).map fun state =>
    { id := state.trackId, mid := media.mid.getD [], streamId := state.streamId,
      ssrc := state.ssrc, mediaType := media.mediaType }

end Tracks

section Codecs

inductive PayloadType where
  | pcma
  | pcmu
  | g722
  | opus
  | h264
  | vp8
  | vp9
  | rtx
  | telephoneEvent
  deriving DecidableEq

def PayloadType.text : PayloadType → Text
  | pcma => "PCMA".toList
  | pcmu => "PCMU".toList
  | g722 => "G722".toList
  | opus => "opus".toList
  | h264 => "H264".toList
  | vp8 => "VP8".toList
  | vp9 => "VP9".toList
  | rtx => "rtx".toList
  | telephoneEvent => "telephone-event".toList

def PayloadType.fromStr (text : Text) : Option PayloadType :=
  [pcma, pcmu, g722, opus, h264, vp8, vp9, rtx, telephoneEvent].find? fun name =>
    name.text = text

structure Rtpmap where
  name : PayloadType
  rate : UInt32
  typeNumber : UInt8
  params : Text := []
  fmtp : Text := []
  rtcpFeedbacks : List Text := []
  deriving DecidableEq

def Rtpmap.fromStr (s : Text) : Outcome Rtpmap :=
  match splitN ' ' 2 s with
  | [number, codec] =>
    (orFault .parseInt (readBelow 256 number)).bind fun pt =>
      match codec.splitOn '/' with
      | name :: rate :: rest =>
        (orFault .parseInt (readU32 rate)).bind fun rate =>
          (orFault .variantNotFound (PayloadType.fromStr name)).map fun name =>
            { name, rate := UInt32.ofNat rate, typeNumber := UInt8.ofNat pt,
              params := match rest with | [params] => params | _ => [] }
      | _ => .error .invalidSdp
  | _ => .error .invalidSdp

def Rtpmap.ptDefault (pt : Text) : Option Rtpmap :=
  if pt = ['0'] then some { name := .pcmu, rate := 8000, typeNumber := 0 }
  else if pt = ['8'] then some { name := .pcma, rate := 8000, typeNumber := 8 }
  else if pt = ['9'] then some { name := .g722, rate := 8000, typeNumber := 9 }
  else none

/-- What stands after the type number, where a value is about that number. -/
def aboutType (pt value : Text) : Option Text :=
  match splitN ' ' 2 value with
  | [number, rest] => if number = pt then some rest else none
  | _ => none

/-- What an attribute says of a type number, after what was said of it before. -/
def readCodec (pt : Text) (rtpmap : Option Rtpmap) (attr : Attribute) : Option Rtpmap :=
  let value := attr.value.getD []
  match aboutType pt value with
  | none => rtpmap
  | some rest =>
    if attr.key = "rtpmap".toList then
      match Rtpmap.fromStr value with
      | .ok r => if digits r.typeNumber.toNat = pt then some r else rtpmap
      | .error _ => rtpmap
    else if attr.key = "fmtp".toList then
      rtpmap.map fun r => { r with fmtp := rest }
    else if attr.key = "rtcp-fb".toList then
      -- feedback is not used for audio
      rtpmap.map fun r =>
        if r.name ≠ .opus then { r with rtcpFeedbacks := r.rtcpFeedbacks ++ [rest] } else r
    else rtpmap

def MediaDescription.ptRtpmap (media : MediaDescription) (pt : Text) : Option Rtpmap :=
  (Rtpmap.ptDefault pt).or (media.attributes.foldl (readCodec pt) none)

def MediaDescription.getRtpmaps (media : MediaDescription) : List Rtpmap :=
  media.payloads.filterMap media.ptRtpmap

end Codecs

end Sdp
