import Mathlib.Logic.Function.Basic
import Nebula.Sip.Fsm

/- Sending a request through a new client transaction. The record store is the
   part of Redis under nebula:sip:tx and the sip_message fields of channels. A
   request is stored as text; the store keeps what is read back from it. Random
   branches and the network are parameters. -/
namespace Transaction
open Sip Fsm

/-- What sending asks of the host: the local address of each transport, name
    lookup and whether the transport takes a message. -/
structure Network where
  localUri : TransportType → Bool → Option Uri
  lookupHost : String → Option String
  deliver : Message → Bool

structure TxRecord where
  state : State
  addr : Uri
  request : Option Message
  deriving DecidableEq, Repr

structure Store where
  txs : String → Option TxRecord
  sipMessage : String → Option Message

def Store.empty : Store := ⟨fun _ => none, fun _ => none⟩

def getPort (uri : Uri) : Nat :=
  uri.port.getD (match uri.transport with
    | .Udp => 5060
    | .Tcp => 5060
    | .Tls => 5061
    | .Ws => 80
    | .Wss => 443)

def entryState (key : TransactionKey) : State :=
  match key.method, key.txType with
  | .INVITE, .Server => .Proceeding
  | .INVITE, .Client => .Calling
  | _, _ => .Trying

/-- The timers of a client transaction that was just created. -/
def entryTimers (key : TransactionKey) (uri : Uri) : List (Nat × Input) :=
  match key.txType, key.method with
  | .Server, _ => []
  | .Client, .INVITE =>
    (if uri.transport = .Udp then [(T1, .TimerA)] else []) ++ [(64 * T1, .TimerB)]
  | .Client, _ =>
    (if uri.transport = .Udp then [(T1, .TimerE)] else []) ++ [(64 * T1, .TimerF)]

/-- The address fields of a record. -/
def addrFields (uri : Uri) : Uri :=
  { host := uri.host, ip := uri.ip, port := some (getPort uri), transport := uri.transport,
    isProvider := some (uri.isProvider.getD false) }

/- Sets the whole record in one script, or finds the key taken. -/
def create (key : TransactionKey) (uri : Uri) (store : Store) :
    Except SipError (Store × List (Nat × Input)) :=
  match store.txs key.redisKey with
  | some _ => .error .TransactionExist
  | none =>
    .ok ({ store with
      txs := Function.update store.txs key.redisKey
        (some ⟨entryState key, addrFields uri, none⟩) },
      entryTimers key uri)

def resolveRemoteUri (net : Network) (msg : Message) : Message :=
  match msg.remoteUri with
  | none => msg
  | some uri =>
    if uri.ip = "" then
      { msg with remoteUri := some { uri with ip := (net.lookupHost uri.host).getD uri.ip } }
    else msg

def isTeams (remote : Uri) : Bool := remote.host.endsWith "pstnhub.microsoft.com"

/- The message as it is stored and handed to the transport, with the address it
   goes to. The new Via is pushed at the end of the list. -/
def outgoing (net : Network) (branch : String) (msg : Message) : Except SipError (Message × Uri) :=
  if msg.isRequest then
    let msg := resolveRemoteUri net msg
    match msg.remoteUri with
    | none => .error .AddrInvalid
    | some remote =>
      match net.localUri remote.transport (remote.isProvider.getD false) with
      | none => .error .TransportNotSupported
      | some here =>
        let contactHost := if isTeams remote then msg.fromAddr.uri.host else here.host
        .ok ({ msg with
          via := msg.via ++ [⟨here.transport, here.host, here.port, branch⟩]
          contact := some { uri := {
            user := some "nebula", host := contactHost, port := here.port,
            transport := here.transport } }
          remoteUri := some (if isTeams remote then
            { remote with contactHost := some msg.fromAddr.uri.host } else remote) }, remote)
  else .error .NotRequest

def setRequest (key : TransactionKey) (request : Message) (store : Store) : Store :=
  { store with
    txs := Function.update store.txs key.redisKey
      ((store.txs key.redisKey).map fun record =>
        { record with request := some request.readBack })
    sipMessage :=
      if request.method = some .INVITE then
        Function.update store.sipMessage request.callid (some request.readBack)
      else store.sipMessage }

def getRequest (key : TransactionKey) (store : Store) : Option Message :=
  (store.txs key.redisKey).bind TxRecord.request

def send (sha256 : String → String) (net : Network) (branch : String) (store : Store)
    (msg : Message) : Except SipError TransactionKey × Store :=
  match outgoing net branch msg with
  | .error fault => (.error fault, store)
  | .ok (request, remote) =>
    match getTxKey sha256 request .Client with
    | .error fault => (.error fault, store)
    | .ok key =>
      match create key remote store with
      | .error fault => (.error fault, store)
      | .ok (created, _) =>
        (if net.deliver request then .ok key else .error .TransportFailed,
          setRequest key request created)

/-- The server transaction of a received request, when there is none yet. -/
def handleRequest (sha256 : String → String) (store : Store) (msg : Message) : Store :=
  match getTxKey sha256 msg .Server, msg.remoteUri with
  | .ok key, some uri =>
    match create key uri store with
    | .ok (created, _) => created
    | .error _ => store
  | _, _ => store

/-- The machine moves a transaction to another state. -/
def setState (store : Store) (redisKey : String) (state : State) : Store :=
  { store with
    txs := Function.update store.txs redisKey
      ((store.txs redisKey).map fun record => { record with state := state }) }

/-- The record is deleted by the machine, or its key expires. -/
def expire (store : Store) (redisKey : String) : Store :=
  { store with txs := Function.update store.txs redisKey none }

/- What happens to the store: requests are sent with the branch generated for
   them, requests arrive, transactions move on and end. -/
inductive Event where
  | send (branch : String) (msg : Message)
  | handleRequest (msg : Message)
  | setState (redisKey : String) (state : State)
  | expire (redisKey : String)

def step (sha256 : String → String) (net : Network) (store : Store) : Event → Store
  | .send branch msg => (send sha256 net branch store msg).2
  | .handleRequest msg => handleRequest sha256 store msg
  | .setState redisKey state => setState store redisKey state
  | .expire redisKey => expire store redisKey

end Transaction
