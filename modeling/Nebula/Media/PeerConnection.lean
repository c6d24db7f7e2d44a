import Mathlib.Data.List.Perm.Basic
import Mathlib.Logic.Function.Basic
import Nebula.Lib.ByteStrings
import Nebula.Lib.Runs

/- Peer connections of the media servers. The first STUN request from an address binds it to
   the channel that its user name stands for, and the keys of a DTLS handshake on that
   address go to the streams of the channel. -/
namespace PeerConnection
open ByteStrings Runs

structure Attribute where
  key : String
  value : Option String

structure Ice where
  ufrag : String
  pwd : String

structure Dtls where
  fingerprint : String
  hash : String
  setup : String

def attributeValue (attrs : List Attribute) (key : String) : Option String :=
  match attrs.find? (·.key == key) with
  | some attr => attr.value
  | none => none

def extractIce (attrs : List Attribute) : Option Ice :=
  match attributeValue attrs "ice-ufrag", attributeValue attrs "ice-pwd" with
  | some ufrag, some pwd => some ⟨ufrag, pwd⟩
  | _, _ => none

/-- The two parts of `splitn(2, " ")`, where there are two. -/
def splitSpace (text : String) : Option (String × String) :=
  match text.toList.span (· != ' ') with
  | (hash, _ :: rest) => some (String.ofList hash, String.ofList rest)
  | (_, []) => none

def extractDtls (attrs : List Attribute) : Option Dtls :=
  match attributeValue attrs "setup", (attributeValue attrs "fingerprint").bind splitSpace with
  | some setup, some (hash, fingerprint) => some ⟨fingerprint, hash, setup⟩
  | _, _ => none

structure MediaDescription where
  attributes : List Attribute

structure SessionDescription where
  attributes : List Attribute
  mediaDescriptions : List MediaDescription

inductive SessionDescKind where
  | Local
  | Remote
  deriving DecidableEq

namespace SessionDescription

def ice (sdp : SessionDescription) : Option Ice :=
  match extractIce sdp.attributes with
  | some ice => some ice
  | none => sdp.mediaDescriptions.findSome? (extractIce ·.attributes)

def dtls (sdp : SessionDescription) : Option Dtls :=
  match extractDtls sdp.attributes with
  | some dtls => some dtls
  | none => sdp.mediaDescriptions.findSome? (extractDtls ·.attributes)

/-- The mids that `media_stream_tracks` has a track for. -/
def mids (sdp : SessionDescription) : List String :=
  (sdp.mediaDescriptions.filterMap (attributeValue ·.attributes "mid")).filter (· != "")

end SessionDescription

structure SocketAddr where
  ip : String
  port : Nat
  deriving DecidableEq

inductive MessageClass where
  | Request
  | Indication
  | SuccessResponse
  | ErrorResponse
  deriving DecidableEq

structure StunMessage where
  kind : MessageClass
  username : Option String

/-- What the STUN codec, OpenSSL and the UUID library compute: the message in a packet,
    whether its MESSAGE-INTEGRITY verifies under a password, and the fingerprint of a
    certificate by a hash. -/
structure Libraries where
  decode : Bytes → Option StunMessage
  integrity : Bytes → String → Bool
  digest : String → Bytes → String
  uuid_v5 : String → String

structure WebRTC where
  channel : String
  tracks : List String
  localIce : Ice
  remoteIce : Ice
  iceId : String
  localDtls : Dtls
  remoteDtls : Dtls
  dtlsStarted : Bool
  dtlsDone : Bool

inductive PeerConnectionEvent where
  | DtlsDone
  | Stop
  deriving DecidableEq

inductive CryptoKind where
  | Local
  | Remote
  deriving DecidableEq

structure Crypto where
  tag : String
  masterKey : Bytes
  salt : Bytes
  suite : String
  tagLen : Nat
  deriving DecidableEq

structure MediaStream where
  peerAddr : Option SocketAddr := none
  crypto : CryptoKind → Option Crypto := fun _ => none

/-- The keys that peer connections read and write, with the SDPs of a channel as parsed. -/
structure Redis where
  peerConnection : SocketAddr → Option String
  ice : String → Option String
  sdp : String → SessionDescKind → Option SessionDescription
  dtlsIp : String → Option String
  dtlsDone : String → Option String
  mediaStream : String → MediaStream

/-- Where a connection is: on its way through `new`, with whether the channel is the one of
    the address, in its loop, or over. -/
inductive Stage where
  | lookup
  | resolve (username : String)
  | bind (channel : String)
  | loadRemote (channel : String) (cached : Bool)
  | loadLocal (channel : String) (cached : Bool) (remote : SessionDescription)
      (remoteIce : Ice) (remoteDtls : Dtls)
  | loadDone (webrtc : WebRTC)
  | running (webrtc : WebRTC)
  | closed

structure Connection where
  server : String
  addr : SocketAddr
  first : Bytes
  queue : List Bytes
  stage : Stage

/-- Whether the next Redis command, the sending of a response and the making of a transport
    succeed. -/
structure Answers where
  redis : Bool := true
  sent : Bool := true
  transport : Bool := true

section
variable (lib : Libraries)

/-- Without a channel for the address, the first packet has to be a STUN request. -/
def firstPacket (first : Bytes) : Stage :=
  match lib.decode first with
  | some msg =>
    match msg.kind, msg.username with
    | .Request, some username => .resolve username
    | _, _ => .closed
  | none => .closed

/-- A channel of the address that does not load is as good as none. -/
def loadFailed (first : Bytes) (cached : Bool) : Stage :=
  if cached then firstPacket lib first else .closed

def WebRTC.of (channel : String) (remote : SessionDescription) (remoteIce : Ice)
    (remoteDtls : Dtls) (sdp : SessionDescription) (localIce : Ice) (localDtls : Dtls) :
    WebRTC where
  channel := channel
  tracks := ((remote.mids.filter fun mid => sdp.mids.contains mid).map fun mid =>
    lib.uuid_v5 (channel ++ ":" ++ mid)).eraseDups
  localIce := localIce
  remoteIce := remoteIce
  iceId := channel ++ ":" ++ localIce.ufrag ++ ":" ++ remoteIce.ufrag
  localDtls := localDtls
  remoteDtls := remoteDtls
  dtlsStarted := false
  dtlsDone := false

/-- `PeerConnection::new`, one Redis command at a time. -/
def newStep (redis : Redis) (conn : Connection) (ok : Bool) : Redis × Stage :=
  match conn.stage with
  | .lookup =>
    match ok, redis.peerConnection conn.addr with
    | true, some channel => (redis, .loadRemote channel true)
    | _, _ => (redis, firstPacket lib conn.first)
  | .resolve username =>
    match ok, redis.ice username with
    | true, some channel => (redis, .bind channel)
    | _, _ => (redis, .closed)
  | .bind channel =>
    if ok then
      ({ redis with
          peerConnection := Function.update redis.peerConnection conn.addr (some channel) },
        .loadRemote channel false)
    else (redis, .closed)
  | .loadRemote channel cached =>
    match ok, redis.sdp channel .Remote with
    | true, some remote =>
      match remote.ice, remote.dtls with
      | some ice, some dtls => (redis, .loadLocal channel cached remote ice dtls)
      | _, _ => (redis, loadFailed lib conn.first cached)
    | _, _ => (redis, loadFailed lib conn.first cached)
  | .loadLocal channel cached remote remoteIce remoteDtls =>
    match ok, redis.sdp channel .Local with
    | true, some sdp =>
      match sdp.ice, sdp.dtls with
      | some ice, some dtls =>
        (redis, .loadDone (WebRTC.of lib channel remote remoteIce remoteDtls sdp ice dtls))
      | _, _ => (redis, loadFailed lib conn.first cached)
    | _, _ => (redis, loadFailed lib conn.first cached)
  | .loadDone webrtc =>
    (redis, .running { webrtc with
      dtlsDone := ok && redis.dtlsDone webrtc.iceId == some "yes" })
  | stage => (redis, stage)

end

/-- The active side takes the DTLS of the ICE id for its server, once. -/
def claimDtls (redis : Redis) (server : String) (webrtc : WebRTC) (ok : Bool) : Option Redis :=
  if webrtc.localDtls.setup == "active" then
    match ok, redis.dtlsIp webrtc.iceId with
    | true, none => some { redis with
        dtlsIp := Function.update redis.dtlsIp webrtc.iceId (some server) }
    | _, _ => none
  else some redis

/-- Whether a transport is started, on the connection as it is left. -/
def startDtls (redis : Redis) (server : String) (webrtc : WebRTC) (answers : Answers) :
    Redis × WebRTC × Bool :=
  if webrtc.dtlsDone || webrtc.dtlsStarted then (redis, webrtc, false)
  else
    match claimDtls redis server webrtc answers.redis with
    | none => (redis, webrtc, false)
    | some claimed =>
      if answers.transport then (claimed, { webrtc with dtlsStarted := true }, true)
      else (claimed, webrtc, false)

/-- The integrity of a STUN message is not looked at. -/
def handleStun (redis : Redis) (server : String) (webrtc : WebRTC) (answers : Answers)
    (msg : StunMessage) : Redis × WebRTC × Bool :=
  match msg.kind with
  | .Request =>
    if answers.sent && webrtc.localDtls.setup == "actpass" then
      startDtls redis server webrtc answers
    else (redis, webrtc, false)
  | .SuccessResponse =>
    if webrtc.localDtls.setup == "active" then startDtls redis server webrtc answers
    else (redis, webrtc, false)
  | _ => (redis, webrtc, false)

def STUN_MAGIC_COOKIE : Nat := 0x2112A442

def isStunPacket (buf : Bytes) : Bool :=
  decide (20 ≤ buf.length) && decide (readU32 buf 4 = .ok STUN_MAGIC_COOKIE)

/-- DTLS and RTP packets are passed on and leave the connection as it is. -/
def receivePacket (lib : Libraries) (redis : Redis) (server : String) (webrtc : WebRTC)
    (answers : Answers) (packet : Bytes) : Redis × WebRTC × Bool :=
  if isStunPacket packet then
    match lib.decode packet with
    | some msg => handleStun redis server webrtc answers msg
    | none => (redis, webrtc, false)
  else (redis, webrtc, false)

/-- What OpenSSL makes of a handshake that comes to its end. -/
structure Handshake where
  certificate : Option Bytes
  preverified : Bool
  keying : { keying : Bytes // keying.length = 60 }

def verify (_a : Bool) (_ctx : Bytes) : Bool := true

/-- The peer's certificate is asked of the callback alone, which takes any. -/
def getSrtpKey (handshake : Handshake) : Option Bytes :=
  if handshake.certificate.all (verify handshake.preverified) then some handshake.keying.1
  else none

/-- The keys of the two directions out of the 60 bytes that are exported. -/
def cryptoOf (isServer : Bool) (keying : Bytes) (kind : CryptoKind) : Crypto :=
  let one := (keying.take 16, (keying.drop 32).take 14)
  let two := ((keying.drop 16).take 16, (keying.drop 46).take 14)
  let (key, salt) :=
    match kind, isServer with
    | .Remote, true | .Local, false => one
    | .Local, true | .Remote, false => two
  { tag := "1", masterKey := key, salt := salt, suite := "AES_CM_128_HMAC_SHA1_80", tagLen := 10 }

inductive Write where
  | peerAddr (uuid : String) (addr : SocketAddr)
  | crypto (kind : CryptoKind) (uuid : String) (crypto : Crypto)

def Redis.write (redis : Redis) : Write → Redis
  | .peerAddr uuid addr => { redis with
      mediaStream := Function.update redis.mediaStream uuid
        { redis.mediaStream uuid with peerAddr := some addr } }
  | .crypto kind uuid crypto => { redis with
      mediaStream := Function.update redis.mediaStream uuid { redis.mediaStream uuid with
        crypto := Function.update (redis.mediaStream uuid).crypto kind (some crypto) } }

/-- What the task of a transport has been given. -/
structure Job where
  addr : SocketAddr
  webrtc : WebRTC
  isServer : Bool

def installs (job : Job) (keying : Bytes) (streams : List String) : List Write :=
  streams.flatMap fun uuid => [.peerAddr uuid job.addr,
    .crypto .Remote uuid (cryptoOf job.isServer keying .Remote),
    .crypto .Local uuid (cryptoOf job.isServer keying .Local)]

inductive Task where
  | none
  | handshaking (job : Job)
  | installing (iceId : String) (writes : List Write)
  | announcing (iceId : String)

/-- What has happened: the packets from each address, the requests that addresses were bound
    by, the SDPs of each channel and the handshakes with each address. -/
structure History where
  arrived : List (SocketAddr × Bytes)
  bindings : List (SocketAddr × String × Bytes)
  described : List (String × SessionDescKind × SessionDescription)
  shaken : List (SocketAddr × Handshake)

/-- The media servers, with the connection that the pool of each has for an address. -/
structure World where
  redis : Redis
  pool : String → SocketAddr → Option Nat
  conns : Nat → Option Connection
  tasks : Nat → Task
  born : Nat
  stops : List (String × SocketAddr)
  deletes : List SocketAddr
  events : String → List PeerConnectionEvent
  history : History

/-- The event loops of the servers and the tasks of their connections, and what the
    switchboard does to the keys that they read. -/
inductive Event where
  | arrives (server : String) (addr : SocketAddr) (packet : Bytes)
  | goes (n : Nat) (answers : Answers)
  | hears (n : Nat) (event : PeerConnectionEvent)
  | closes (n : Nat)
  | stops (i : Nat)
  | deletes (i : Nat) (ok : Bool)
  | shakes (n : Nat) (result : Option Handshake) (streams : List String)
  | installs (n : Nat) (ok : Bool)
  | described (channel : String) (kind : SessionDescKind) (sdp : Option SessionDescription)
  | named (username : String) (channel : Option String)
  | stopIce (iceId : String)

def Stage.isClosed : Stage → Bool
  | .closed => true
  | _ => false

/-- A connection that is over sends a stop for its address to the pool. -/
def World.setConn (world : World) (n : Nat) (conn : Connection) : World :=
  { world with
    conns := Function.update world.conns n (some conn)
    stops := if conn.stage.isClosed then (conn.server, conn.addr) :: world.stops
      else world.stops }

def World.record (world : World) (addr : SocketAddr) (packet : Bytes) : World :=
  { world with history := { world.history with
      arrived := (addr, packet) :: world.history.arrived } }

def World.open (world : World) (server : String) (addr : SocketAddr) (packet : Bytes) : World :=
  { world with
    pool := Function.update world.pool server
      (Function.update (world.pool server) addr (some world.born))
    conns := Function.update world.conns world.born
      (some ⟨server, addr, packet, [packet], .lookup⟩)
    born := world.born + 1 }

def World.arrive (world : World) (server : String) (addr : SocketAddr) (packet : Bytes) : World :=
  match world.pool server addr with
  | some n =>
    match world.conns n with
    | some conn =>
      if conn.stage.isClosed then world.open server addr packet
      else { world with
        conns := Function.update world.conns n
          (some { conn with queue := conn.queue ++ [packet] }) }
    | none => world.open server addr packet
  | none => world.open server addr packet

def bound (conn : Connection) (ok : Bool) (history : History) : History :=
  match conn.stage, ok with
  | .bind channel, true => { history with
      bindings := (conn.addr, channel, conn.first) :: history.bindings }
  | _, _ => history

def World.go (lib : Libraries) (world : World) (n : Nat) (conn : Connection)
    (answers : Answers) : Option World :=
  match conn.stage with
  | .closed => none
  | .running webrtc =>
    match conn.queue with
    | [] => none
    | packet :: rest =>
      let (redis, left, started) :=
        receivePacket lib world.redis conn.server webrtc answers packet
      let isServer := webrtc.localDtls.setup == "actpass"
      some { world.setConn n { conn with queue := rest, stage := .running left } with
        redis := redis
        tasks := if started then
          Function.update world.tasks n (.handshaking ⟨conn.addr, webrtc, isServer⟩)
        else world.tasks }
  | _ =>
    let (redis, stage) := newStep lib world.redis conn answers.redis
    some { world.setConn n { conn with stage := stage } with
      redis := redis
      history := bound conn answers.redis world.history }

def World.hear (world : World) (n : Nat) (event : PeerConnectionEvent) : Option World :=
  match world.conns n with
  | some conn =>
    match conn.stage with
    | .running webrtc =>
      if event ∈ world.events webrtc.iceId then
        some (world.setConn n { conn with stage :=
          match event with
          | .DtlsDone => .running { webrtc with dtlsDone := true }
          | .Stop => .closed })
      else none
    | _ => none
  | none => none

def World.close (world : World) (n : Nat) : Option World :=
  match world.conns n with
  | some conn =>
    match conn.stage with
    | .running _ => some (world.setConn n { conn with stage := .closed })
    | _ => none
  | none => none

/-- The streams are gone through in any order. -/
def World.shake (world : World) (n : Nat) (result : Option Handshake) (streams : List String) :
    Option World :=
  match world.tasks n with
  | .handshaking job =>
    if streams.Perm job.webrtc.tracks then
      match result with
      | some handshake => some { world with
          tasks := Function.update world.tasks n
            (match getSrtpKey handshake with
            | some keying => .installing job.webrtc.iceId (installs job keying streams)
            | none => .none)
          history := { world.history with
            shaken := (job.addr, handshake) :: world.history.shaken } }
      | none => some { world with tasks := Function.update world.tasks n .none }
    else none
  | _ => none

def World.install (world : World) (n : Nat) (ok : Bool) : Option World :=
  match world.tasks n with
  | .installing iceId (write :: rest) => some { world with
      redis := if ok then world.redis.write write else world.redis
      tasks := Function.update world.tasks n (.installing iceId rest) }
  | .installing iceId [] => some { world with
      redis := if ok then { world.redis with
        dtlsDone := Function.update world.redis.dtlsDone iceId (some "yes") } else world.redis
      tasks := Function.update world.tasks n (.announcing iceId) }
  | .announcing iceId => some { world with
      tasks := Function.update world.tasks n .none
      events := if ok then Function.update world.events iceId
        (.DtlsDone :: world.events iceId) else world.events }
  | _ => none

def peers (lib : Libraries) : Machine World Event
  | world, .arrives server addr packet => some ((world.record addr packet).arrive server addr packet)
  | world, .goes n answers =>
    match world.conns n with
    | some conn => world.go lib n conn answers
    | none => none
  | world, .hears n event => world.hear n event
  | world, .closes n => world.close n
  | world, .stops i =>
    match world.stops[i]? with
    | some (server, addr) => some { world with
        pool := Function.update world.pool server
          (Function.update (world.pool server) addr none)
        stops := world.stops.eraseIdx i
        deletes := addr :: world.deletes }
    | none => none
  | world, .deletes i ok =>
    match world.deletes[i]? with
    | some addr => some { world with
        redis := if ok then { world.redis with
          peerConnection := Function.update world.redis.peerConnection addr none }
          else world.redis
        deletes := world.deletes.eraseIdx i }
    | none => none
  | world, .shakes n result streams => world.shake n result streams
  | world, .installs n ok => world.install n ok
  | world, .described channel kind sdp => some { world with
      redis := { world.redis with
        sdp := Function.update world.redis.sdp channel
          (Function.update (world.redis.sdp channel) kind sdp) }
      history := { world.history with
        described := (sdp.toList.map fun sdp => (channel, kind, sdp)) ++
          world.history.described } }
  | world, .named username channel => some { world with
      redis := { world.redis with ice := Function.update world.redis.ice username channel } }
  | world, .stopIce iceId => some { world with
      redis := { world.redis with
        dtlsIp := Function.update world.redis.dtlsIp iceId none
        dtlsDone := Function.update world.redis.dtlsDone iceId none }
      events := Function.update world.events iceId (.Stop :: world.events iceId) }

def World.begun : World where
  redis := ⟨fun _ => none, fun _ => none, fun _ _ => none, fun _ => none, fun _ => none,
    fun _ => {}⟩
  pool := fun _ _ => none
  conns := fun _ => none
  tasks := fun _ => .none
  born := 0
  stops := []
  deletes := []
  events := fun _ => []
  history := ⟨[], [], [], []⟩

end PeerConnection
