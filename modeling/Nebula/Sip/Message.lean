import Mathlib.Tactic.Common

/- SIP messages as far as transactions and registration look at them, and the
   keys that transactions are stored under. -/
namespace Sip

inductive Method where
  | INVITE
  | REGISTER
  | CANCEL
  | ACK
  | BYE
  | SUBSCRIBE
  | REFER
  | INFO
  | NOTIFY
  | PUBLISH
  | OPTIONS
  deriving DecidableEq, Repr

def Method.text : Method → String
  | .INVITE => "INVITE"
  | .REGISTER => "REGISTER"
  | .CANCEL => "CANCEL"
  | .ACK => "ACK"
  | .BYE => "BYE"
  | .SUBSCRIBE => "SUBSCRIBE"
  | .REFER => "REFER"
  | .INFO => "INFO"
  | .NOTIFY => "NOTIFY"
  | .PUBLISH => "PUBLISH"
  | .OPTIONS => "OPTIONS"

inductive TransportType where
  | Udp
  | Tcp
  | Tls
  | Ws
  | Wss
  deriving DecidableEq, Repr

structure Uri where
  user : Option String := none
  host : String := ""
  ip : String := ""
  port : Option Nat := none
  transport : TransportType := .Udp
  isProvider : Option Bool := none
  contactHost : Option String := none
  deriving DecidableEq, Repr

structure Address where
  uri : Uri := {}
  tag : Option String := none
  expires : Option Int := none
  deriving DecidableEq, Repr

structure Via where
  transport : TransportType := .Udp
  host : String := ""
  port : Option Nat := none
  branch : String := ""
  deriving DecidableEq, Repr

structure Cseq where
  seq : Int := 0
  method : Method := .INVITE
  deriving DecidableEq, Repr

structure Authorization where
  username : String
  realm : String
  nonce : String
  uri : String
  response : String
  cnonce : Option String := none
  qop : Option String := none
  nonceCount : Option String := none
  deriving DecidableEq, Repr

structure Message where
  method : Option Method := none
  requestUri : Option Uri := none
  via : List Via := []
  contact : Option Address := none
  toAddr : Address := {}
  fromAddr : Address := {}
  callid : String := ""
  cseq : Cseq := {}
  expires : Option Int := none
  authorization : Option Authorization := none
  proxyAuthorization : Option Authorization := none
  device : Option String := none
  deviceToken : Option String := none
  replaces : Option String := none
  trunkInfo : Option String := none
  globalDnd : Option String := none
  globalForward : Option String := none
  authUser : Option String := none
  authProvider : Option String := none
  userAgent : Option String := none
  remoteUri : Option Uri := none
  deriving DecidableEq, Repr

def Message.isRequest (msg : Message) : Bool := msg.requestUri.isSome

/- What is left of a request that is printed and parsed again: the addresses lose
   what only the proxy knows, and where the message came from is not printed. -/
def Uri.readBack (uri : Uri) : Uri :=
  { uri with ip := "", isProvider := none, contactHost := none }

def Address.readBack (address : Address) : Address :=
  { address with uri := address.uri.readBack }

def Message.readBack (msg : Message) : Message :=
  { msg with
    method := some (msg.method.getD .INVITE)
    requestUri := msg.requestUri.map Uri.readBack
    contact := msg.contact.map Address.readBack
    toAddr := msg.toAddr.readBack
    fromAddr := msg.fromAddr.readBack
    authUser := none
    authProvider := none
    remoteUri := none }

inductive TransactionType where
  | Client
  | Server
  deriving DecidableEq, Repr

def TransactionType.text : TransactionType → String
  | .Client => "Client"
  | .Server => "Server"

structure TransactionKey where
  branch : String
  method : Method
  callid : String
  txType : TransactionType
  encoded : String
  deriving DecidableEq, Repr

/-- The hash is a parameter; the four parts are hashed as one text. -/
def TransactionKey.new (sha256 : String → String) (branch : String) (method : Method)
    (callid : String) (txType : TransactionType) : TransactionKey where
  branch := branch
  method := method
  callid := callid
  txType := txType
  encoded := sha256 (branch ++ method.text ++ callid ++ txType.text)

def TransactionKey.redisKey (key : TransactionKey) : String := "nebula:sip:tx:" ++ key.encoded

inductive SipError where
  | NotRequest
  | NoVia
  | AddrInvalid
  | TransportNotSupported
  | TransactionExist
  | TransportFailed
  deriving DecidableEq, Repr

/- The key of the topmost Via, with an ACK filed under its INVITE. -/
def getTxKey (sha256 : String → String) (msg : Message) (txType : TransactionType) :
    Except SipError TransactionKey :=
  match msg.via with
  | [] => .error .NoVia
  | via :: _ =>
    let method :=
      if msg.isRequest then
        match msg.method.getD .INVITE with
        | .ACK => .INVITE
        | method => method
      else msg.cseq.method
    .ok (.new sha256 via.branch method msg.callid txType)

end Sip
