import Nebula.Lib.LineRecord
import Nebula.Sip.AddressRoundTrip
import Nebula.Sip.CredentialsText
import Nebula.Sip.ViaText

/- SIP messages as texts: a first line, header lines, a blank line and a body. The
   fields of a message are named by the headers that carry them. -/
namespace SipText
open Sip (Method)
open TextScan DecimalText

section Fields

inductive RouteHeader where
  | route
  | recordRoute
  deriving DecidableEq

inductive NumberHeader where
  | maxForwards
  | expires
  deriving DecidableEq

inductive PartyHeader where
  | toParty
  | fromParty
  deriving DecidableEq

inductive AddressHeader where
  | contact
  | referTo
  | referBy
  | pai
  | pci
  | remotePartyId
  | diversion
  deriving DecidableEq

inductive CredentialsHeader where
  | authorization
  | proxyAuthorization
  deriving DecidableEq

inductive ChallengeHeader where
  | wwwAuthenticate
  | proxyAuthenticate
  deriving DecidableEq

inductive TextHeader where
  | allow
  | privacy
  | event
  | subscriptionState
  | contentType
  | contentDisposition
  | reason
  | alertInfo
  | device
  | deviceToken
  | inReplyTo
  | internalCall
  | userAgent
  | replaces
  | trunkInfo
  | trunkExtension
  | zironTag
  | globalDnd
  | globalForward
  | room
  | roomAuthToken
  | transferTarget
  | transferAutoAnswer
  | authUser
  | authProvider
  deriving DecidableEq

/-- The fields of a message that header lines fill. -/
inductive Header where
  | via
  | routes (header : RouteHeader)
  | number (header : NumberHeader)
  | party (header : PartyHeader)
  | address (header : AddressHeader)
  | callid
  | cseq
  | contentLength
  | credentials (header : CredentialsHeader)
  | challenge (header : ChallengeHeader)
  | text (header : TextHeader)
  | destination
  | generic
  deriving DecidableEq

structure GenericHeader where
  name : Text
  content : Text
  deriving DecidableEq

@[reducible] def Header.Value : Header → Type
  | .via => List Via
  | .routes _ => List Address
  | .number _ => Option Int32
  | .party _ => Address
  | .address _ => Option Address
  | .callid => Text
  | .cseq => Cseq
  | .contentLength => Int32
  | .credentials _ => Option Authorization
  | .challenge _ => Option Authenticate
  | .text _ => Option Text
  | .destination => Option Uri
  | .generic => List GenericHeader

abbrev Fields := (header : Header) → header.Value

def Fields.default : Fields
  | .via => ([] : List Via)
  | .routes _ => ([] : List Address)
  | .number _ => (none : Option Int32)
  | .party _ => ({} : Address)
  | .address _ => (none : Option Address)
  | .callid => ([] : Text)
  | .cseq => ({} : Cseq)
  | .contentLength => (0 : Int32)
  | .credentials _ => (none : Option Authorization)
  | .challenge _ => (none : Option Authenticate)
  | .text _ => (none : Option Text)
  | .destination => (none : Option Uri)
  | .generic => ([] : List GenericHeader)

/-- A message; where it came from is neither printed nor read. -/
structure Message where
  method : Option Method := none
  requestUri : Option Uri := none
  code : Option Int32 := none
  status : Option Text := none
  fields : Fields := Fields.default
  body : Option Text := none

def Message.via (msg : Message) : List Via := msg.fields .via
def Message.routes (msg : Message) (header : RouteHeader) : List Address := msg.fields (.routes header)
def Message.party (msg : Message) (header : PartyHeader) : Address := msg.fields (.party header)
def Message.address (msg : Message) (header : AddressHeader) : Option Address :=
  msg.fields (.address header)
def Message.contentLength (msg : Message) : Int32 := msg.fields .contentLength
def Message.text (msg : Message) (header : TextHeader) : Option Text := msg.fields (.text header)
def Message.destination (msg : Message) : Option Uri := msg.fields .destination

end Fields

section Reading

/-- The names that parse_line knows, in lower case; every other line is a generic header. -/
def headerNames : List (Text × Header) :=
  [("v".toList, .via), ("via".toList, .via),
    ("record-route".toList, .routes .recordRoute),
    ("max-forwards".toList, .number .maxForwards),
    ("cseq".toList, .cseq),
    ("expires".toList, .number .expires),
    ("route".toList, .routes .route),
    ("m".toList, .address .contact), ("contact".toList, .address .contact),
    ("f".toList, .party .fromParty), ("from".toList, .party .fromParty),
    ("t".toList, .party .toParty), ("to".toList, .party .toParty),
    ("i".toList, .callid), ("call-id".toList, .callid),
    ("l".toList, .contentLength), ("content-length".toList, .contentLength),
    ("content-type".toList, .text .contentType),
    ("allow".toList, .text .allow),
    ("refer-to".toList, .address .referTo),
    ("referred-by".toList, .address .referBy),
    ("x-authuser".toList, .text .authUser),
    ("x-authprovider".toList, .text .authProvider),
    ("x-device".toList, .text .device),
    ("x-device-token".toList, .text .deviceToken),
    ("in-reply-to".toList, .text .inReplyTo),
    ("remote-party-id".toList, .address .remotePartyId),
    ("diversion".toList, .address .diversion),
    ("p-asserted-identity".toList, .address .pai),
    ("x-destination".toList, .destination),
    ("x-internal-call".toList, .text .internalCall),
    ("x-room-id".toList, .text .room),
    ("x-room-auth-token".toList, .text .roomAuthToken),
    ("x-global-dnd".toList, .text .globalDnd),
    ("x-global-forward".toList, .text .globalForward),
    ("x-transfer-target".toList, .text .transferTarget),
    ("x-transfer-auto-answer".toList, .text .transferAutoAnswer),
    ("x-trunk-info".toList, .text .trunkInfo),
    ("x-trunk-extension".toList, .text .trunkExtension),
    ("x-ziron-tag".toList, .text .zironTag),
    ("privacy".toList, .text .privacy),
    ("event".toList, .text .event),
    ("user-agent".toList, .text .userAgent),
    ("alert-info".toList, .text .alertInfo),
    ("replaces".toList, .text .replaces),
    ("subscription-state".toList, .text .subscriptionState),
    ("www-authenticate".toList, .challenge .wwwAuthenticate),
    ("proxy-authenticate".toList, .challenge .proxyAuthenticate),
    ("authorization".toList, .credentials .authorization),
    ("proxy-authorization".toList, .credentials .proxyAuthorization)]

def headerNamed (filed : Text) : Header :=
  (headerNames.find? fun entry => entry.1 = lowercase filed).elim .generic Prod.snd

/-- A header line: the text before its first colon, and the trimmed text after it. -/
structure Line where
  filed : Text
  value : Text

def Line.header (line : Line) : Header := headerNamed line.filed

/-- What a line makes of the field it concerns; there is nothing where parse_line panics.
    Its errors are ignored. -/
def readHeader (form : FormUrlencoded) :
    (header : Header) → Line → header.Value → Option header.Value
  | .via, line, (old : List Via) =>
    some (old ++ (line.value.splitOn ',').filterMap fun part =>
      Via.fromStr form (trim whitespace part))
  | .routes _, line, (old : List Address) =>
    some (old ++ (Address.fromStr form line.value).toList)
  | .number _, line, _ => some (readInt32 line.value)
  | .party _, line, (old : Address) => some ((Address.fromStr form line.value).getD old)
  | .address _, line, _ => some (Address.fromStr form line.value)
  | .callid, line, _ => some line.value
  | .cseq, line, (old : Cseq) => some ((Cseq.fromStr line.value).getD old)
  | .contentLength, line, _ => some ((readInt32 line.value).getD 0)
  | .credentials _, line, _ => (Authorization.fromStr line.value).map some
  | .challenge _, line, _ => (Authenticate.fromStr line.value).map some
  | .text _, line, _ => some (some line.value)
  | .destination, line, _ => some (Uri.fromStr form line.value)
  | .generic, line, (old : List GenericHeader) => some (old ++ [⟨line.filed, line.value⟩])

def parseLine (form : FormUrlencoded) (fields : Fields) (line : Line) : Option Fields :=
  LineRecord.readLine Line.header (readHeader form) fields line

/-- The loop over header lines, up to a blank line or the end; lines without a colon are
    passed over. -/
def readFields (form : FormUrlencoded) (fields : Fields) : List Text → Option (Fields × List Text)
  | [] => some (fields, [])
  | line :: rest =>
    if (trim whitespace line).isEmpty then some (fields, rest)
    else
      match (cut ':' (trim whitespace line)).2 with
      | none => readFields form fields rest
      | some value =>
        (parseLine form fields ⟨(cut ':' (trim whitespace line)).1, trim whitespace value⟩).bind
          fun fields => readFields form fields rest

/-- splitn(3, ' '), where it gives three parts. -/
def threeParts (line : Text) : Option (Text × Text × Text) :=
  (cut ' ' line).2.bind fun rest =>
    (cut ' ' rest).2.map fun third => ((cut ' ' line).1, (cut ' ' rest).1, third)

def readStart (form : FormUrlencoded) (line : Text) : Option Message :=
  (threeParts line).bind fun parts =>
    if "SIP/2.0".toList.isPrefixOf line then
      (readInt32 parts.2.1).map fun code => { code := some code, status := some parts.2.2 }
    else
      (methodFromStr parts.1).bind fun method =>
        (Uri.fromStr form parts.2.1).map fun uri =>
          { method := some method, requestUri := some uri }

/-- At most so many bytes; a text that would end within a character is an error. -/
def takeBytes : Nat → Text → Option Text
  | 0, _ => some []
  | _ + 1, [] => some []
  | n + 1, c :: rest =>
    if c.utf8Size ≤ n + 1 then (takeBytes (n + 1 - c.utf8Size) rest).map (c :: ·) else none

def readBody (length : Int32) (rest : List Text) : Option (Option Text) :=
  if 0 < length.toInt then (takeBytes length.toInt.toNat rest.flatten).map some else some none

/-- Message::parse. The reader is at its end where there is no first line. -/
def Message.fromStr (form : FormUrlencoded) (s : Text) : Option Message :=
  (readStart form (trim whitespace ((lines '\n' s).headD []))).bind fun start =>
    (readFields form Fields.default (lines '\n' s).tail).bind fun read =>
      (readBody (read.1 .contentLength) read.2).map fun body =>
        { start with fields := read.1, body }

end Reading

section Printing

/-- The names under which the fields are printed. -/
def Header.name : Header → Text
  | .via => "Via".toList
  | .routes .recordRoute => "Record-Route".toList
  | .routes .route => "Route".toList
  | .number .maxForwards => "Max-Forwards".toList
  | .address .contact => "Contact".toList
  | .party .toParty => "To".toList
  | .party .fromParty => "From".toList
  | .callid => "Call-ID".toList
  | .cseq => "CSeq".toList
  | .challenge .wwwAuthenticate => "WWW-Authenticate".toList
  | .challenge .proxyAuthenticate => "Proxy-Authenticate".toList
  | .credentials .authorization => "Authorization".toList
  | .credentials .proxyAuthorization => "Proxy-Authorization".toList
  | .text .allow => "Allow".toList
  | .address .remotePartyId => "Remote-Party-ID".toList
  | .address .diversion => "Diversion".toList
  | .address .pai => "P-Asserted-Identity".toList
  | .address .pci => "P-Charge-Info".toList
  | .text .privacy => "Privacy".toList
  | .destination => "X-Destination".toList
  | .text .device => "X-Device".toList
  | .text .deviceToken => "X-Device-Token".toList
  | .text .event => "Event".toList
  | .text .subscriptionState => "Subscription-State".toList
  | .number .expires => "Expires".toList
  | .text .contentType => "Content-Type".toList
  | .text .contentDisposition => "Content-Disposition".toList
  | .text .reason => "Reason".toList
  | .address .referTo => "Refer-To".toList
  | .address .referBy => "REFERRED-BY".toList
  | .text .inReplyTo => "In-Reply-To".toList
  | .text .internalCall => "X-Internal-Call".toList
  | .text .room => "X-Room-Id".toList
  | .text .roomAuthToken => "X-Room-Auth-Token".toList
  | .text .globalDnd => "X-Global-DND".toList
  | .text .globalForward => "X-Global-Forward".toList
  | .text .transferTarget => "X-Transfer-Target".toList
  | .text .transferAutoAnswer => "X-Transfer-Auto-Answer".toList
  | .text .trunkInfo => "X-Trunk-Info".toList
  | .text .trunkExtension => "X-Trunk-Extension".toList
  | .text .zironTag => "X-Ziron-Tag".toList
  | .text .replaces => "Replaces".toList
  | .text .alertInfo => "Alert-Info".toList
  | .text .userAgent => "User-Agent".toList
  | .contentLength => "Content-Length".toList
  -- never printed under a name of their own
  | .text .authUser => []
  | .text .authProvider => []
  | .generic => []

/-- The fields in the order in which Display writes them. -/
def displayed : List Header :=
  [.via, .routes .recordRoute, .routes .route, .number .maxForwards, .address .contact,
    .party .toParty, .party .fromParty, .callid, .cseq, .challenge .wwwAuthenticate,
    .challenge .proxyAuthenticate, .credentials .authorization, .credentials .proxyAuthorization,
    .text .allow, .address .remotePartyId, .address .diversion, .address .pai, .address .pci,
    .text .privacy, .destination, .text .device, .text .deviceToken, .text .event,
    .text .subscriptionState, .number .expires, .text .contentType, .text .contentDisposition,
    .text .reason, .address .referTo, .address .referBy, .text .inReplyTo, .text .internalCall,
    .text .room, .text .roomAuthToken, .text .globalDnd, .text .globalForward,
    .text .transferTarget, .text .transferAutoAnswer, .text .trunkInfo, .text .trunkExtension,
    .text .zironTag, .text .replaces, .text .alertInfo, .text .userAgent, .generic, .contentLength]

/-- The texts that a field is printed as, each on a line of its own. -/
def valueTexts (form : FormUrlencoded) : (header : Header) → header.Value → List Text
  | .via, (vias : List Via) => vias.map Via.toText
  | .routes _, (addresses : List Address) => addresses.map (Address.toText form)
  | .number _, (number : Option Int32) => number.toList.map fun value => signed value.toInt
  | .party _, (address : Address) => [address.toText form]
  | .address _, (address : Option Address) => address.toList.map (Address.toText form)
  | .callid, (callid : Text) => [callid]
  | .cseq, (cseq : Cseq) => [cseq.toText]
  | .contentLength, _ => []
  | .credentials _, (auth : Option Authorization) => auth.toList.map Authorization.toText
  | .challenge _, (auth : Option Authenticate) => auth.toList.map Authenticate.toText
  | .text _, (text : Option Text) => text.toList
  | .destination, (uri : Option Uri) => uri.toList.map (Uri.toText form)
  | .generic, _ => []

/-- The length of the body is printed, whatever the field says. -/
def Message.printed (form : FormUrlencoded) (msg : Message) (header : Header) : List (Text × Text) :=
  match header with
  | .generic => (msg.fields .generic : List GenericHeader).map fun header =>
      (header.name, header.content)
  | .contentLength => [(Header.name .contentLength, digits (byteLength (msg.body.getD [])))]
  | header => (valueTexts form header (msg.fields header)).map fun text => (header.name, text)

def lineText (entry : Text × Text) : Text := entry.1 ++ ": ".toList ++ entry.2 ++ "\r\n".toList

def Message.startText (form : FormUrlencoded) (msg : Message) : Text :=
  if msg.requestUri.isSome then
    methodText (msg.method.getD .INVITE) ++ ' ' ::
      ((msg.requestUri.getD {}).toText form ++ " SIP/2.0".toList)
  else "SIP/2.0 ".toList ++ signed (msg.code.getD 0).toInt ++ ' ' :: msg.status.getD []

def Message.toText (form : FormUrlencoded) (msg : Message) : Text :=
  msg.startText form ++ "\r\n".toList ++
    (displayed.flatMap (msg.printed form)).flatMap lineText ++ "\r\n".toList ++ msg.body.getD []

end Printing

end SipText
