import Nebula.Lib.TextParts
import Nebula.Sip.CredentialsText

/- Session descriptions as texts: how one is read line by line, and how a media description
   is printed. -/
namespace Sdp
open TextScan TextParts DecimalText
open SipText (Text lowercase byteLength dropBytes)

section Model

/-- The reasons why a text is not read, and a panic. -/
inductive Fault where
  | panic
  | invalidSdp
  | parseInt
  | variantNotFound
  | decode
  deriving DecidableEq

abbrev Outcome (Result : Type) := Except Fault Result

def orFault {Result : Type} (fault : Fault) : Option Result → Outcome Result
  | some result => .ok result
  | none => .error fault

inductive MediaType where
  | audio
  | video
  | image
  deriving DecidableEq

def MediaType.text : MediaType → Text
  | audio => "audio".toList
  | video => "video".toList
  | image => "image".toList

def MediaType.fromStr (text : Text) : Option MediaType :=
  [audio, video, image].find? fun mediaType => mediaType.text = text

structure Attribute where
  key : Text
  value : Option Text
  deriving DecidableEq

structure MediaDescription where
  mediaType : MediaType
  port : UInt16
  numPorts : UInt32
  proto : Text
  payloads : List Text
  attributes : List Attribute
  deriving DecidableEq

structure Origin where
  username : Text := []
  sessionId : Text := []
  sessionVersion : Text := []
  networkType : Text := []
  addrType : Text := []
  addr : Text := []
  deriving DecidableEq

structure Connection where
  networkType : Text := []
  addrType : Text := []
  addr : Text := []
  deriving DecidableEq

structure SessionDescription where
  version : Text := []
  origin : Origin := {}
  sessionName : Text := []
  connection : Connection := {}
  timeStart : Int32 := 0
  timeStop : Int32 := 0
  attributes : List Attribute := []
  mediaDescriptions : List MediaDescription := []
  deriving DecidableEq

end Model

section Reading

def Attribute.read (data : Text) : Attribute :=
  let parts := cut ':' data
  ⟨parts.1, parts.2⟩

def readPorts (text : Text) : Outcome (UInt16 × UInt32) :=
  let parts := text.splitOn '/'
  (orFault .parseInt (readUInt16 (parts.headD []))).bind fun port =>
    match parts with
    | [_, num] =>
      (orFault .parseInt (readBelow 4294967296 num)).map fun numPorts =>
        (port, UInt32.ofNat numPorts)
    | _ => .ok (port, 0)

def parseMedia (s : Text) : Outcome MediaDescription :=
  match splitN ' ' 4 s with
  | kind :: ports :: proto :: rest =>
    (orFault .variantNotFound (MediaType.fromStr (lowercase kind))).bind fun mediaType =>
      (readPorts ports).map fun port =>
        { mediaType, port := port.1, numPorts := port.2, proto,
          payloads := (rest.head?.map (List.splitOn ' ')).getD [], attributes := [] }
  | _ => .error .invalidSdp

def Origin.fromStr (s : Text) : Outcome Origin :=
  match s.splitOn ' ' with
  | [username, sessionId, sessionVersion, networkType, addrType, addr] =>
    .ok { username, sessionId, sessionVersion, networkType, addrType, addr }
  | _ => .error .invalidSdp

/-- The first byte of a line and what follows the second: slices, which panic inside a
    character. -/
def typeAndData (line : Text) : Outcome (Char × Text) :=
  match line with
  | [] => .error .panic
  | descType :: _ =>
    if descType.utf8Size = 1 then
      (orFault .panic (dropBytes 2 line)).map fun data => (descType, data)
    else .error .panic

def addToLast (attr : Attribute) : List MediaDescription → List MediaDescription
  | [] => []
  | [media] => [{ media with attributes := media.attributes ++ [attr] }]
  | media :: next :: rest => media :: addToLast attr (next :: rest)

def SessionDescription.readData (sdp : SessionDescription) (descType : Char) (data : Text) :
    Outcome SessionDescription :=
  match descType.toLower with
  | 'v' => .ok { sdp with version := data }
  | 's' => .ok { sdp with sessionName := data }
  | 'o' => (Origin.fromStr data).map fun origin => { sdp with origin }
  | 't' =>
    match data.splitOn ' ' with
    | [start, stop] =>
      (orFault .parseInt (readInt32 start)).bind fun timeStart =>
        (orFault .parseInt (readInt32 stop)).map fun timeStop => { sdp with timeStart, timeStop }
    | _ => .error .invalidSdp
  | 'm' =>
    match parseMedia data with
    | .ok media => .ok { sdp with mediaDescriptions := sdp.mediaDescriptions ++ [media] }
    | .error _ => .ok sdp
  | 'c' =>
    match data.splitOn ' ' with
    | [networkType, addrType, addr] =>
      .ok { sdp with connection := { networkType, addrType, addr } }
    | _ => .error .invalidSdp
  | 'a' =>
    let attr := Attribute.read data
    if sdp.mediaDescriptions = [] then .ok { sdp with attributes := sdp.attributes ++ [attr] }
    else .ok { sdp with mediaDescriptions := addToLast attr sdp.mediaDescriptions }
  | _ => .ok sdp

def SessionDescription.readLine (sdp : SessionDescription) (line : Text) :
    Outcome SessionDescription :=
  if byteLength line < 2 then .ok sdp
  else (typeAndData line).bind fun parts => sdp.readData parts.1 parts.2

def SessionDescription.fromStr (s : Text) : Outcome SessionDescription :=
  (splitPair '\r' '\n' s).foldlM SessionDescription.readLine {}

def MediaDescription.readLine (media : MediaDescription) (line : Text) :
    Outcome MediaDescription :=
  if byteLength line < 2 then .ok media
  else (typeAndData line).map fun parts =>
    if parts.1.toLower = 'a' then
      { media with attributes := media.attributes ++ [Attribute.read parts.2] }
    else media

def MediaDescription.fromStr (s : Text) : Outcome MediaDescription :=
  match splitPair '\r' '\n' s with
  | ('m' :: '=' :: data) :: rest => (parseMedia data).bind (rest.foldlM MediaDescription.readLine)
  | _ => .error .invalidSdp

end Reading

section Printing

def crlf : Text := ['\r', '\n']

def Attribute.toString (attr : Attribute) : Text :=
  match attr.value with
  | some value => "a=".toList ++ attr.key ++ ':' :: value ++ crlf
  | none => "a=".toList ++ attr.key ++ crlf

def MediaDescription.toString (media : MediaDescription) : Text :=
  "m=".toList ++ media.mediaType.text ++ ' ' :: digits media.port.toNat ++
    (if 0 < media.numPorts then '/' :: digits media.numPorts.toNat else []) ++
    ' ' :: media.proto ++ ' ' :: [' '].intercalate media.payloads ++ crlf ++
    media.attributes.flatMap Attribute.toString

end Printing

end Sdp
