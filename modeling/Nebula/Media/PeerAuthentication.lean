import Nebula.Media.PeerConnection

/- Whose keys and addresses the streams of a channel get. Nothing looks at the integrity of
   a STUN request or at the certificate of a peer: both have to be right as they come. -/
namespace PeerAuthentication
open ByteStrings Runs PeerConnection

section
variable (lib : Libraries) (history : History)

/-- The address was bound to the channel by a STUN request from it that verifies under a
    local ICE password of the channel. -/
def Bound (addr : SocketAddr) (channel : String) : Prop :=
  ∃ request msg sdp ice, (addr, channel, request) ∈ history.bindings ∧
    (addr, request) ∈ history.arrived ∧ lib.decode request = some msg ∧ msg.kind = .Request ∧
    (channel, SessionDescKind.Local, sdp) ∈ history.described ∧ sdp.ice = some ice ∧
    lib.integrity request ice.pwd = true

/-- The certificate has the fingerprint of a remote SDP of the channel. -/
def Signalled (channel : String) (certificate : Option Bytes) : Prop :=
  ∃ sdp dtls cert, (channel, SessionDescKind.Remote, sdp) ∈ history.described ∧
    sdp.dtls = some dtls ∧ certificate = some cert ∧ lib.digest dtls.hash cert = dtls.fingerprint

/-- The handshake is one with the peer that was signalled for the channel of the stream. -/
def Genuine (uuid : String) (addr : SocketAddr) (handshake : Handshake) : Prop :=
  ∃ channel mid, uuid = lib.uuid_v5 (channel ++ ":" ++ mid) ∧ (addr, handshake) ∈ history.shaken ∧
    Signalled lib history channel handshake.certificate ∧ Bound lib history addr channel

def Rightful : Write → Prop
  | .peerAddr uuid addr => ∃ handshake, Genuine lib history uuid addr handshake
  | .crypto kind uuid crypto => ∃ addr handshake keying isServer,
      Genuine lib history uuid addr handshake ∧ getSrtpKey handshake = some keying ∧
        crypto = cryptoOf isServer keying kind

end

def Stored (redis : Redis) : Write → Prop
  | .peerAddr uuid addr => (redis.mediaStream uuid).peerAddr = some addr
  | .crypto kind uuid crypto => (redis.mediaStream uuid).crypto kind = some crypto

/-- The streams have keys and addresses of signalled peers alone. -/
def Authentic (lib : Libraries) (world : World) : Prop :=
  ∀ write, Stored world.redis write → Rightful lib world.history write

/-- A request that binds an address verifies under the local ICE password of the channel,
    and a handshake that completes for streams is one with the certificate of the remote SDP. -/
def Guarded (lib : Libraries) : Guard World Event
  | world, .goes n answers => ∀ conn channel, world.conns n = some conn →
      conn.stage = .bind channel → answers.redis = true →
        ∃ sdp ice, world.redis.sdp channel .Local = some sdp ∧ sdp.ice = some ice ∧
          lib.integrity conn.first ice.pwd = true
  | world, .shakes n result _ => ∀ job handshake, world.tasks n = .handshaking job →
      job.webrtc.tracks ≠ [] → result = some handshake →
        ∃ cert, handshake.certificate = some cert ∧
          lib.digest job.webrtc.remoteDtls.hash cert = job.webrtc.remoteDtls.fingerprint
  | _, _ => True

structure Grown (before after : History) : Prop where
  arrived : before.arrived ⊆ after.arrived
  bindings : before.bindings ⊆ after.bindings
  described : before.described ⊆ after.described
  shaken : before.shaken ⊆ after.shaken

theorem Grown.refl (history : History) : Grown history history :=
  ⟨List.Subset.refl _, List.Subset.refl _, List.Subset.refl _, List.Subset.refl _⟩

/-- What a connection has loaded is of a channel that its address is bound to. -/
structure Opened (lib : Libraries) (history : History) (addr : SocketAddr) (webrtc : WebRTC) :
    Prop where
  binding : Bound lib history addr webrtc.channel
  remote : ∃ sdp, (webrtc.channel, SessionDescKind.Remote, sdp) ∈ history.described ∧
    sdp.dtls = some webrtc.remoteDtls
  tracks : ∀ uuid ∈ webrtc.tracks, ∃ mid, uuid = lib.uuid_v5 (webrtc.channel ++ ":" ++ mid)

def StageHeld (lib : Libraries) (history : History) (addr : SocketAddr) (first : Bytes) :
    Stage → Prop
  | .resolve _ | .bind _ => ∃ msg, lib.decode first = some msg ∧ msg.kind = .Request
  | .loadRemote channel _ => Bound lib history addr channel
  | .loadLocal channel _ remote _ remoteDtls => Bound lib history addr channel ∧
      (channel, SessionDescKind.Remote, remote) ∈ history.described ∧
      remote.dtls = some remoteDtls
  | .loadDone webrtc | .running webrtc => Opened lib history addr webrtc
  | .lookup | .closed => True

structure ConnHeld (lib : Libraries) (history : History) (conn : Connection) : Prop where
  first : (conn.addr, conn.first) ∈ history.arrived
  stage : StageHeld lib history conn.addr conn.first conn.stage

def TaskHeld (lib : Libraries) (history : History) : Task → Prop
  | .handshaking job => Opened lib history job.addr job.webrtc
  | .installing _ writes => ∀ write ∈ writes, Rightful lib history write
  | .none | .announcing _ => True

structure Held (lib : Libraries) (world : World) : Prop where
  cached : ∀ addr channel, world.redis.peerConnection addr = some channel →
    Bound lib world.history addr channel
  conns : ∀ n conn, world.conns n = some conn → ConnHeld lib world.history conn
  sdps : ∀ channel kind sdp, world.redis.sdp channel kind = some sdp →
    (channel, kind, sdp) ∈ world.history.described
  tasks : ∀ n, TaskHeld lib world.history (world.tasks n)
  authentic : Authentic lib world

section
variable {lib : Libraries} {before after : History}

theorem Bound.mono (grown : Grown before after) {addr : SocketAddr} {channel : String}
    (held : Bound lib before addr channel) : Bound lib after addr channel := by
  obtain ⟨request, msg, sdp, ice, isBinding, hasArrived, decodes, isRequest, isLocal, verifies⟩ :=
    held
  exact ⟨request, msg, sdp, ice, grown.bindings isBinding, grown.arrived hasArrived, decodes,
    isRequest, grown.described isLocal, verifies⟩

theorem Signalled.mono (grown : Grown before after) {channel : String}
    {certificate : Option Bytes} (held : Signalled lib before channel certificate) :
    Signalled lib after channel certificate := by
  obtain ⟨sdp, dtls, cert, isRemote, rest⟩ := held
  exact ⟨sdp, dtls, cert, grown.described isRemote, rest⟩

theorem Genuine.mono (grown : Grown before after) {uuid : String} {addr : SocketAddr}
    {handshake : Handshake} (held : Genuine lib before uuid addr handshake) :
    Genuine lib after uuid addr handshake := by
  obtain ⟨channel, mid, isStream, isShaken, signalled, binding⟩ := held
  exact ⟨channel, mid, isStream, grown.shaken isShaken, signalled.mono grown, binding.mono grown⟩

theorem Rightful.mono (grown : Grown before after) {write : Write}
    (held : Rightful lib before write) : Rightful lib after write := by
  cases write with
  | peerAddr uuid addr =>
    obtain ⟨handshake, genuine⟩ := held
    exact ⟨handshake, genuine.mono grown⟩
  | crypto kind uuid crypto =>
    obtain ⟨addr, handshake, keying, isServer, genuine, keys⟩ := held
    exact ⟨addr, handshake, keying, isServer, genuine.mono grown, keys⟩

theorem Opened.mono (grown : Grown before after) {addr : SocketAddr} {webrtc : WebRTC}
    (held : Opened lib before addr webrtc) : Opened lib after addr webrtc := by
  obtain ⟨sdp, isRemote, hasDtls⟩ := held.remote
  exact ⟨held.binding.mono grown, ⟨sdp, grown.described isRemote, hasDtls⟩, held.tracks⟩

theorem ConnHeld.mono (grown : Grown before after) {conn : Connection}
    (held : ConnHeld lib before conn) : ConnHeld lib after conn := by
  refine ⟨grown.arrived held.first, ?_⟩
  have stage := held.stage
  generalize conn.stage = now at stage
  cases now with
  | lookup => trivial
  | closed => trivial
  | resolve username => exact stage
  | bind channel => exact stage
  | loadRemote channel cached => exact stage.mono grown
  | loadLocal channel cached remote ice dtls =>
    exact ⟨stage.1.mono grown, grown.described stage.2.1, stage.2.2⟩
  | loadDone webrtc => exact stage.mono grown
  | running webrtc => exact stage.mono grown

theorem TaskHeld.mono (grown : Grown before after) {task : Task}
    (held : TaskHeld lib before task) : TaskHeld lib after task := by
  cases task with
  | none => trivial
  | announcing iceId => trivial
  | handshaking job => exact Opened.mono grown held
  | installing iceId writes => exact fun write listed => (held write listed).mono grown

end

section
variable {lib : Libraries} {world after : World}

/-- A step has to show what it changes, and that the history only grows. -/
theorem Held.step (held : Held lib world) (grown : Grown world.history after.history)
    (cached : ∀ addr channel, after.redis.peerConnection addr = some channel →
      world.redis.peerConnection addr = some channel ∨ Bound lib after.history addr channel)
    (conns : ∀ n conn, after.conns n = some conn →
      world.conns n = some conn ∨ ConnHeld lib after.history conn)
    (sdps : ∀ channel kind sdp, after.redis.sdp channel kind = some sdp →
      world.redis.sdp channel kind = some sdp ∨ (channel, kind, sdp) ∈ after.history.described)
    (tasks : ∀ n, after.tasks n = world.tasks n ∨ TaskHeld lib after.history (after.tasks n))
    (streams : ∀ write, Stored after.redis write →
      Stored world.redis write ∨ Rightful lib after.history write) : Held lib after where
  cached addr channel stored := by
    rcases cached addr channel stored with earlier | now
    · exact (held.cached addr channel earlier).mono grown
    · exact now
  conns n conn isConn := by
    rcases conns n conn isConn with earlier | now
    · exact (held.conns n conn earlier).mono grown
    · exact now
  sdps channel kind sdp stored := by
    rcases sdps channel kind sdp stored with earlier | now
    · exact grown.described (held.sdps channel kind sdp earlier)
    · exact now
  tasks n := by
    rcases tasks n with earlier | now
    · rw [earlier]
      exact (held.tasks n).mono grown
    · exact now
  authentic write stored := by
    rcases streams write stored with earlier | now
    · exact (held.authentic write earlier).mono grown
    · exact now

/-- A step that changes connections alone. -/
theorem Held.conns_step (held : Held lib world) (redis : after.redis = world.redis)
    (tasks : after.tasks = world.tasks) (history : after.history = world.history)
    (conns : ∀ n conn, after.conns n = some conn →
      world.conns n = some conn ∨ ConnHeld lib world.history conn) : Held lib after := by
  apply held.step
  · rw [history]
    exact Grown.refl _
  · intro addr channel stored
    rw [redis] at stored
    exact Or.inl stored
  · rw [history]
    exact conns
  · intro channel kind sdp stored
    rw [redis] at stored
    exact Or.inl stored
  · exact fun n => Or.inl (congrFun tasks n)
  · intro write stored
    rw [redis] at stored
    exact Or.inl stored

end

/-- Two contents of Redis that differ in the DTLS claims at most. -/
structure SameKeys (before after : Redis) : Prop where
  peerConnection : after.peerConnection = before.peerConnection
  sdp : after.sdp = before.sdp
  mediaStream : after.mediaStream = before.mediaStream

theorem stored_congr {before after : Redis} (same : after.mediaStream = before.mediaStream)
    (write : Write) : Stored after write ↔ Stored before write := by
  cases write <;> simp only [Stored, same]

theorem SameKeys.refl (redis : Redis) : SameKeys redis redis := ⟨rfl, rfl, rfl⟩

section
variable {lib : Libraries} {history : History} {redis : Redis} {conn : Connection}

theorem firstPacket_held (addr : SocketAddr) (first : Bytes) :
    StageHeld lib history addr first (firstPacket lib first) := by
  unfold firstPacket
  split
  · rename_i msg decodes
    split
    · rename_i isRequest _
      exact ⟨msg, decodes, isRequest⟩
    · trivial
  · trivial

theorem loadFailed_held (addr : SocketAddr) (first : Bytes) (cached : Bool) :
    StageHeld lib history addr first (loadFailed lib first cached) := by
  unfold loadFailed
  split
  · exact firstPacket_held addr first
  · trivial

/-- The streams of a connection are named after its channel. -/
theorem tracks_named {channel : String} {remote sdp : SessionDescription} {remoteIce ice : Ice}
    {remoteDtls dtls : Dtls} {uuid : String}
    (listed : uuid ∈ (WebRTC.of lib channel remote remoteIce remoteDtls sdp ice dtls).tracks) :
    ∃ mid, uuid = lib.uuid_v5 (channel ++ ":" ++ mid) := by
  have named := List.mem_eraseDups.mp listed
  obtain ⟨mid, _, same⟩ := List.mem_map.mp named
  exact ⟨mid, same.symm⟩

theorem bound_grown (conn : Connection) (ok : Bool) (history : History) :
    Grown history (bound conn ok history) := by
  unfold bound
  split
  · exact ⟨List.Subset.refl _, List.subset_cons_self _ _, List.Subset.refl _,
      List.Subset.refl _⟩
  · exact Grown.refl history

/-- The request that binds an address verifies, if the step is guarded. -/
theorem bound_binding (held : ConnHeld lib history conn) {channel : String}
    (binds : conn.stage = .bind channel)
    (sdps : ∀ channel kind sdp, redis.sdp channel kind = some sdp →
      (channel, kind, sdp) ∈ history.described)
    (verified : ∃ sdp ice, redis.sdp channel .Local = some sdp ∧ sdp.ice = some ice ∧
      lib.integrity conn.first ice.pwd = true) :
    Bound lib (bound conn true history) conn.addr channel := by
  have isRequest := held.stage
  rw [binds] at isRequest
  obtain ⟨msg, decodes, isRequest⟩ := isRequest
  obtain ⟨sdp, ice, stored, hasIce, verifies⟩ := verified
  have grown := bound_grown conn true history
  refine ⟨conn.first, msg, sdp, ice, ?_, grown.arrived held.first, decodes, isRequest,
    grown.described (sdps channel .Local sdp stored), hasIce, verifies⟩
  unfold bound
  rw [binds]
  exact List.mem_cons_self

theorem newStep_stage (held : ConnHeld lib history conn) (ok : Bool)
    (sdps : ∀ channel kind sdp, redis.sdp channel kind = some sdp →
      (channel, kind, sdp) ∈ history.described)
    (cached : ∀ addr channel, redis.peerConnection addr = some channel →
      Bound lib history addr channel)
    (verified : ∀ channel, conn.stage = .bind channel → ok = true →
      ∃ sdp ice, redis.sdp channel .Local = some sdp ∧ sdp.ice = some ice ∧
        lib.integrity conn.first ice.pwd = true) :
    StageHeld lib (bound conn ok history) conn.addr conn.first (newStep lib redis conn ok).2 := by
  have grown := bound_grown conn ok history
  have stage := (held.mono grown).stage
  unfold newStep
  cases now : conn.stage with
  | lookup =>
    dsimp only
    cases ok with
    | false => exact firstPacket_held _ _
    | true =>
      cases stored : redis.peerConnection conn.addr with
      | none => exact firstPacket_held _ _
      | some channel => exact (cached conn.addr channel stored).mono grown
  | resolve username =>
    rw [now] at stage
    dsimp only
    cases ok with
    | false => trivial
    | true =>
      cases redis.ice username with
      | none => trivial
      | some channel => exact stage
  | bind channel =>
    cases ok with
    | false => trivial
    | true => exact bound_binding held now sdps (verified channel now rfl)
  | loadRemote channel cached =>
    rw [now] at stage
    dsimp only
    cases ok with
    | false => exact loadFailed_held _ _ _
    | true =>
      cases stored : redis.sdp channel .Remote with
      | none => exact loadFailed_held _ _ _
      | some remote =>
        dsimp only
        cases remote.ice with
        | none => exact loadFailed_held _ _ _
        | some ice =>
          cases hasDtls : remote.dtls with
          | none => exact loadFailed_held _ _ _
          | some dtls =>
            exact ⟨stage, grown.described (sdps channel .Remote remote stored), hasDtls⟩
  | loadLocal channel cached remote remoteIce remoteDtls =>
    rw [now] at stage
    dsimp only
    cases ok with
    | false => exact loadFailed_held _ _ _
    | true =>
      cases redis.sdp channel .Local with
      | none => exact loadFailed_held _ _ _
      | some sdp =>
        dsimp only
        cases sdp.ice with
        | none => exact loadFailed_held _ _ _
        | some ice =>
          cases sdp.dtls with
          | none => exact loadFailed_held _ _ _
          | some dtls =>
            exact ⟨stage.1, ⟨remote, stage.2⟩, fun uuid listed => tracks_named listed⟩
  | loadDone webrtc =>
    rw [now] at stage
    exact ⟨stage.binding, stage.remote, stage.tracks⟩
  | running webrtc =>
    rw [now] at stage
    exact stage
  | closed => trivial

theorem newStep_redis (redis : Redis) (conn : Connection) (ok : Bool) :
    SameKeys redis (newStep lib redis conn ok).1 ∨
      ∃ channel, conn.stage = .bind channel ∧ ok = true ∧
        (newStep lib redis conn ok).1 = { redis with
          peerConnection := Function.update redis.peerConnection conn.addr (some channel) } := by
  unfold newStep
  cases now : conn.stage with
  | bind channel =>
    cases ok with
    | false => exact Or.inl (SameKeys.refl redis)
    | true => exact Or.inr ⟨channel, rfl, rfl, rfl⟩
  | _ =>
    left
    dsimp only
    repeat' split
    all_goals exact SameKeys.refl redis

theorem startDtls_same (redis : Redis) (server : String) (webrtc : WebRTC) (answers : Answers) :
    SameKeys redis (startDtls redis server webrtc answers).1 ∧
      ((startDtls redis server webrtc answers).2.1 = webrtc ∨
        (startDtls redis server webrtc answers).2.1 = { webrtc with dtlsStarted := true }) := by
  have claimed : ∀ after, claimDtls redis server webrtc answers.redis = some after →
      SameKeys redis after := by
    intro after claims
    unfold claimDtls at claims
    repeat' split at claims
    all_goals cases claims
    all_goals exact ⟨rfl, rfl, rfl⟩
  unfold startDtls
  split
  · exact ⟨SameKeys.refl redis, Or.inl rfl⟩
  · split
    · exact ⟨SameKeys.refl redis, Or.inl rfl⟩
    · rename_i after claims
      split
      · exact ⟨claimed after claims, Or.inr rfl⟩
      · exact ⟨claimed after claims, Or.inl rfl⟩

theorem receivePacket_same (redis : Redis) (server : String) (webrtc : WebRTC)
    (answers : Answers) (packet : Bytes) :
    SameKeys redis (receivePacket lib redis server webrtc answers packet).1 ∧
      ((receivePacket lib redis server webrtc answers packet).2.1 = webrtc ∨
        (receivePacket lib redis server webrtc answers packet).2.1 =
          { webrtc with dtlsStarted := true }) := by
  have nothing : SameKeys redis redis ∧
      (webrtc = webrtc ∨ webrtc = { webrtc with dtlsStarted := true }) :=
    ⟨SameKeys.refl redis, Or.inl rfl⟩
  unfold receivePacket
  split
  · split
    · unfold handleStun
      repeat' split
      all_goals first
        | exact startDtls_same redis server webrtc answers
        | exact nothing
    · exact nothing
  · exact nothing

theorem opened_left {addr : SocketAddr} {webrtc left : WebRTC}
    (opened : Opened lib history addr webrtc)
    (same : left = webrtc ∨ left = { webrtc with dtlsStarted := true }) :
    Opened lib history addr left := by
  rcases same with rfl | rfl
  · exact opened
  · exact ⟨opened.binding, opened.remote, opened.tracks⟩

end

section
variable {lib : Libraries} {world after : World}

theorem update_cases {α β : Type} [DecidableEq α] {table : α → Option β} {key other : α}
    {value : Option β} {found : β} (isFound : Function.update table key value other = some found) :
    (other = key ∧ value = some found) ∨ table other = some found := by
  by_cases same : other = key
  · subst same
    rw [Function.update_self] at isFound
    exact Or.inl ⟨rfl, isFound⟩
  · rw [Function.update_of_ne same] at isFound
    exact Or.inr isFound

/-- One connection changes, and the others stay. -/
theorem conn_cases {history : History} {conns : Nat → Option Connection} {n other : Nat}
    {conn found : Connection} (isConn : ConnHeld lib history conn)
    (isFound : Function.update conns n (some conn) other = some found) :
    conns other = some found ∨ ConnHeld lib history found := by
  rcases update_cases isFound with ⟨_, now⟩ | earlier
  · cases now
    exact Or.inr isConn
  · exact Or.inl earlier

/-- A connection goes on to another stage, and the keys at hand stay. -/
theorem setConn_held (held : Held lib world) {n : Nat} {conn : Connection}
    (isConn : ConnHeld lib world.history conn) : Held lib (world.setConn n conn) := by
  refine held.conns_step rfl rfl rfl ?_
  exact fun other found isFound => conn_cases isConn isFound

theorem record_held (held : Held lib world) (addr : SocketAddr) (packet : Bytes) :
    Held lib (world.record addr packet) := by
  apply held.step
  · exact ⟨List.subset_cons_self _ _, List.Subset.refl _, List.Subset.refl _,
      List.Subset.refl _⟩
  · exact fun _ _ stored => Or.inl stored
  · exact fun _ _ isConn => Or.inl isConn
  · exact fun _ _ _ stored => Or.inl stored
  · exact fun _ => Or.inl rfl
  · exact fun _ stored => Or.inl stored

theorem open_held (held : Held lib world) (server : String) {addr : SocketAddr} {packet : Bytes}
    (arrived : (addr, packet) ∈ world.history.arrived) :
    Held lib (world.open server addr packet) := by
  refine held.conns_step rfl rfl rfl ?_
  intro other found isFound
  refine conn_cases ?_ isFound
  exact ⟨arrived, trivial⟩

theorem arrive_held (held : Held lib world) (server : String) (addr : SocketAddr)
    (packet : Bytes) : Held lib ((world.record addr packet).arrive server addr packet) := by
  have recorded := record_held held addr packet
  have opened := open_held recorded server (List.mem_cons_self (a := (addr, packet)))
  unfold World.arrive
  split
  · rename_i n _
    split
    · rename_i conn isConn
      split
      · exact opened
      · have kept := recorded.conns n conn isConn
        refine recorded.conns_step rfl rfl rfl ?_
        intro other found isFound
        refine conn_cases ?_ isFound
        exact ⟨kept.first, kept.stage⟩
    · exact opened
  · exact opened

/-- A connection on its way through `new` takes its next step. -/
theorem new_held (held : Held lib world) {n : Nat} {answers : Answers} {conn : Connection}
    (isConn : world.conns n = some conn) (guarded : Guarded lib world (.goes n answers)) :
    Held lib { world.setConn n { conn with
        stage := (newStep lib world.redis conn answers.redis).2 } with
      redis := (newStep lib world.redis conn answers.redis).1
      history := bound conn answers.redis world.history } := by
  have kept := held.conns n conn isConn
  have grown := bound_grown conn answers.redis world.history
  have verified := fun channel => guarded conn channel isConn
  have stage := newStep_stage kept answers.redis held.sdps held.cached verified
  have same := @newStep_redis lib world.redis conn answers.redis
  apply held.step
  · exact grown
  · intro addr channel stored
    rcases same with same | ⟨bindsTo, binds, ok, same⟩
    · rw [same.peerConnection] at stored
      exact Or.inl stored
    · rw [same] at stored
      rcases update_cases stored with ⟨rfl, now⟩ | earlier
      · cases now
        have binding := bound_binding kept binds held.sdps (verified channel binds ok)
        rw [← ok] at binding
        exact Or.inr binding
      · exact Or.inl earlier
  · intro other found isFound
    refine conn_cases ?_ isFound
    exact ⟨grown.arrived kept.first, stage⟩
  · intro channel kind sdp stored
    rcases same with same | ⟨_, _, _, same⟩
    · rw [same.sdp] at stored
      exact Or.inl stored
    · rw [same] at stored
      exact Or.inl stored
  · exact fun _ => Or.inl rfl
  · intro write stored
    rcases same with same | ⟨_, _, _, same⟩
    · exact Or.inl ((stored_congr same.mediaStream write).mp stored)
    · rw [same] at stored
      exact Or.inl stored

/-- A connection in its loop takes a packet, which may start a transport. -/
theorem packet_held (held : Held lib world) {n : Nat} {answers : Answers} {conn : Connection}
    {webrtc : WebRTC} (isConn : world.conns n = some conn) (running : conn.stage = .running webrtc)
    (packet : Bytes) (rest : List Bytes) (isServer : Bool) :
    Held lib { world.setConn n { conn with
        queue := rest
        stage := .running (receivePacket lib world.redis conn.server webrtc answers packet).2.1 } with
      redis := (receivePacket lib world.redis conn.server webrtc answers packet).1
      tasks := if (receivePacket lib world.redis conn.server webrtc answers packet).2.2 then
          Function.update world.tasks n (.handshaking ⟨conn.addr, webrtc, isServer⟩)
        else world.tasks } := by
  have kept := held.conns n conn isConn
  have opened := kept.stage
  rw [running] at opened
  obtain ⟨same, left⟩ := @receivePacket_same lib world.redis conn.server webrtc answers packet
  apply held.step
  · exact Grown.refl _
  · intro addr channel stored
    rw [same.peerConnection] at stored
    exact Or.inl stored
  · intro other found isFound
    refine conn_cases ?_ isFound
    exact ⟨kept.first, opened_left opened left⟩
  · intro channel kind sdp stored
    rw [same.sdp] at stored
    exact Or.inl stored
  · intro other
    dsimp only
    split
    · by_cases here : other = n
      · subst here
        rw [Function.update_self]
        exact Or.inr opened
      · rw [Function.update_of_ne here]
        exact Or.inl rfl
    · exact Or.inl rfl
  · exact fun write stored => Or.inl ((stored_congr same.mediaStream write).mp stored)

theorem go_held (held : Held lib world) {n : Nat} {answers : Answers} {conn : Connection}
    (isConn : world.conns n = some conn) (guarded : Guarded lib world (.goes n answers))
    (went : world.go lib n conn answers = some after) : Held lib after := by
  unfold World.go at went
  split at went
  · cases went
  · rename_i webrtc running
    split at went
    · cases went
    · rename_i packet rest _
      cases went
      exact packet_held held isConn running packet rest _
  · cases went
    exact new_held held isConn guarded

theorem hear_held (held : Held lib world) {n : Nat} {event : PeerConnectionEvent}
    (heard : world.hear n event = some after) : Held lib after := by
  unfold World.hear at heard
  split at heard
  · rename_i conn isConn
    split at heard
    · rename_i webrtc running
      split at heard
      · cases heard
        have kept := held.conns n conn isConn
        have opened := kept.stage
        rw [running] at opened
        apply setConn_held held
        refine ⟨kept.first, ?_⟩
        cases event with
        | DtlsDone => exact ⟨opened.binding, opened.remote, opened.tracks⟩
        | Stop => trivial
      · cases heard
    · cases heard
  · cases heard

theorem close_held (held : Held lib world) {n : Nat} (closed : world.close n = some after) :
    Held lib after := by
  unfold World.close at closed
  split at closed
  · rename_i conn isConn
    split at closed
    · cases closed
      exact setConn_held held ⟨(held.conns n conn isConn).first, trivial⟩
    · cases closed
  · cases closed

theorem getSrtpKey_keying (handshake : Handshake) :
    getSrtpKey handshake = some handshake.keying.1 := by
  have taken : handshake.certificate.all (verify handshake.preverified) = true := by
    cases handshake.certificate with
    | none => rfl
    | some cert => rfl
  unfold getSrtpKey
  rw [if_pos taken]

/-- What a handshake with the signalled peer installs is rightful. -/
theorem installs_rightful {history : History} {job : Job} {handshake : Handshake}
    {streams : List String} (opened : Opened lib history job.addr job.webrtc)
    (perm : streams.Perm job.webrtc.tracks) (shaken : (job.addr, handshake) ∈ history.shaken)
    (verified : job.webrtc.tracks ≠ [] → ∃ cert, handshake.certificate = some cert ∧
      lib.digest job.webrtc.remoteDtls.hash cert = job.webrtc.remoteDtls.fingerprint)
    {write : Write} (listed : write ∈ installs job handshake.keying.1 streams) :
    Rightful lib history write := by
  obtain ⟨uuid, isStream, isWrite⟩ := List.mem_flatMap.mp listed
  have isTrack := perm.mem_iff.mp isStream
  obtain ⟨mid, named⟩ := opened.tracks uuid isTrack
  obtain ⟨sdp, isRemote, hasDtls⟩ := opened.remote
  obtain ⟨cert, presented, matched⟩ := verified (List.ne_nil_of_mem isTrack)
  have genuine : Genuine lib history uuid job.addr handshake :=
    ⟨job.webrtc.channel, mid, named, shaken,
      ⟨sdp, job.webrtc.remoteDtls, cert, isRemote, hasDtls, presented, matched⟩, opened.binding⟩
  simp only [List.mem_cons, List.not_mem_nil, or_false] at isWrite
  rcases isWrite with rfl | rfl | rfl
  · exact ⟨handshake, genuine⟩
  · exact ⟨job.addr, handshake, _, job.isServer, genuine, getSrtpKey_keying handshake, rfl⟩
  · exact ⟨job.addr, handshake, _, job.isServer, genuine, getSrtpKey_keying handshake, rfl⟩

/-- The task of one connection changes, and the others stay. -/
theorem task_cases {history : History} {tasks : Nat → Task} {n : Nat} {task : Task}
    (isHeld : TaskHeld lib history task) (other : Nat) :
    Function.update tasks n task other = tasks other ∨
      TaskHeld lib history (Function.update tasks n task other) := by
  by_cases same : other = n
  · subst same
    rw [Function.update_self]
    exact Or.inr isHeld
  · rw [Function.update_of_ne same]
    exact Or.inl rfl

theorem shake_held (held : Held lib world) {n : Nat} {result : Option Handshake}
    {streams : List String} (guarded : Guarded lib world (.shakes n result streams))
    (shaken : world.shake n result streams = some after) : Held lib after := by
  unfold World.shake at shaken
  split at shaken
  · rename_i job isTask
    split at shaken
    · rename_i perm
      have opened : Opened lib world.history job.addr job.webrtc := by
        have kept := held.tasks n
        rw [isTask] at kept
        exact kept
      split at shaken
      · rename_i handshake
        cases shaken
        have grown : Grown world.history { world.history with
            shaken := (job.addr, handshake) :: world.history.shaken } :=
          ⟨List.Subset.refl _, List.Subset.refl _, List.Subset.refl _, List.subset_cons_self _ _⟩
        have rightful : ∀ write ∈ installs job handshake.keying.1 streams, Rightful lib
            { world.history with shaken := (job.addr, handshake) :: world.history.shaken }
              write := by
          intro write listed
          exact installs_rightful (opened.mono grown) perm List.mem_cons_self
            (fun streams => guarded job handshake isTask streams rfl) listed
        apply held.step
        · exact grown
        · exact fun _ _ stored => Or.inl stored
        · exact fun _ _ isConn => Or.inl isConn
        · exact fun _ _ _ stored => Or.inl stored
        · apply task_cases
          rw [getSrtpKey_keying]
          exact rightful
        · exact fun _ stored => Or.inl stored
      · cases shaken
        apply held.step
        · exact Grown.refl _
        · exact fun _ _ stored => Or.inl stored
        · exact fun _ _ isConn => Or.inl isConn
        · exact fun _ _ _ stored => Or.inl stored
        · exact task_cases trivial
        · exact fun _ stored => Or.inl stored
    · cases shaken
  · cases shaken

/-- A write leaves what it writes, and what was there. -/
theorem write_cases {redis : Redis} {write found : Write}
    (stored : Stored (redis.write write) found) : found = write ∨ Stored redis found := by
  cases write with
  | peerAddr uuid addr =>
    cases found with
    | peerAddr other there =>
      by_cases same : other = uuid
      · subst same
        simp only [Stored, Redis.write, Function.update_self] at stored
        cases stored
        exact Or.inl rfl
      · simp only [Stored, Redis.write, Function.update_of_ne same] at stored
        exact Or.inr stored
    | crypto kind other crypto =>
      right
      by_cases same : other = uuid
      · subst same
        simpa only [Stored, Redis.write, Function.update_self] using stored
      · simpa only [Stored, Redis.write, Function.update_of_ne same] using stored
  | crypto kind uuid crypto =>
    cases found with
    | peerAddr other there =>
      right
      by_cases same : other = uuid
      · subst same
        simpa only [Stored, Redis.write, Function.update_self] using stored
      · simpa only [Stored, Redis.write, Function.update_of_ne same] using stored
    | crypto kind' other crypto' =>
      by_cases same : other = uuid
      · subst same
        simp only [Stored, Redis.write, Function.update_self] at stored
        rcases update_cases stored with ⟨rfl, now⟩ | earlier
        · cases now
          exact Or.inl rfl
        · exact Or.inr earlier
      · simp only [Stored, Redis.write, Function.update_of_ne same] at stored
        exact Or.inr stored

theorem install_held (held : Held lib world) {n : Nat} {ok : Bool}
    (installed : world.install n ok = some after) : Held lib after := by
  have kept := held.tasks n
  unfold World.install at installed
  split at installed
  · rename_i iceId write rest isTask
    rw [isTask] at kept
    cases installed
    apply held.step
    · exact Grown.refl _
    · exact fun _ _ stored => Or.inl (by cases ok <;> cases write <;> exact stored)
    · exact fun _ _ isConn => Or.inl isConn
    · exact fun _ _ _ stored => Or.inl (by cases ok <;> cases write <;> exact stored)
    · apply task_cases
      exact fun other listed => kept other (List.mem_cons_of_mem _ listed)
    · intro found stored
      cases ok with
      | false => exact Or.inl stored
      | true =>
        rcases write_cases stored with rfl | earlier
        · exact Or.inr (kept found List.mem_cons_self)
        · exact Or.inl earlier
  · cases installed
    apply held.step
    · exact Grown.refl _
    · exact fun _ _ stored => Or.inl (by cases ok <;> exact stored)
    · exact fun _ _ isConn => Or.inl isConn
    · exact fun _ _ _ stored => Or.inl (by cases ok <;> exact stored)
    · exact task_cases trivial
    · intro found stored
      cases ok <;> cases found <;> exact Or.inl stored
  · cases installed
    apply held.step
    · exact Grown.refl _
    · exact fun _ _ stored => Or.inl stored
    · exact fun _ _ isConn => Or.inl isConn
    · exact fun _ _ _ stored => Or.inl stored
    · exact task_cases trivial
    · exact fun _ stored => Or.inl stored
  · cases installed

theorem step_held {event : Event} (held : Held lib world) (guarded : Guarded lib world event)
    (stepped : peers lib world event = some after) : Held lib after := by
  cases event with
  | arrives server addr packet =>
    cases stepped
    exact arrive_held held server addr packet
  | goes n answers =>
    dsimp only [peers] at stepped
    split at stepped
    · rename_i conn isConn
      exact go_held held isConn guarded stepped
    · cases stepped
  | hears n event => exact hear_held held stepped
  | closes n => exact close_held held stepped
  | stops i =>
    dsimp only [peers] at stepped
    split at stepped
    · cases stepped
      exact held.conns_step rfl rfl rfl fun _ _ isConn => Or.inl isConn
    · cases stepped
  | deletes i ok =>
    dsimp only [peers] at stepped
    split at stepped
    · rename_i addr _
      cases stepped
      apply held.step
      · exact Grown.refl _
      · intro other channel stored
        cases ok with
        | false => exact Or.inl stored
        | true =>
          rcases update_cases stored with ⟨_, now⟩ | earlier
          · cases now
          · exact Or.inl earlier
      · exact fun _ _ isConn => Or.inl isConn
      · exact fun _ _ _ stored => Or.inl (by cases ok <;> exact stored)
      · exact fun _ => Or.inl rfl
      · intro found stored
        cases ok <;> cases found <;> exact Or.inl stored
    · cases stepped
  | shakes n result streams => exact shake_held held guarded stepped
  | installs n ok => exact install_held held stepped
  | described channel kind sdp =>
    cases stepped
    apply held.step
    · exact ⟨List.Subset.refl _, List.Subset.refl _, List.subset_append_right _ _,
        List.Subset.refl _⟩
    · exact fun _ _ stored => Or.inl stored
    · exact fun _ _ isConn => Or.inl isConn
    · intro channel' kind' sdp' stored
      by_cases same : channel' = channel
      · subst same
        dsimp only at stored
        rw [Function.update_self] at stored
        rcases update_cases stored with ⟨rfl, rfl⟩ | earlier
        · exact Or.inr (List.mem_append_left _ List.mem_cons_self)
        · exact Or.inl earlier
      · dsimp only at stored
        rw [Function.update_of_ne same] at stored
        exact Or.inl stored
    · exact fun _ => Or.inl rfl
    · exact fun found stored => Or.inl (by cases found <;> exact stored)
  | named username channel =>
    cases stepped
    apply held.step
    · exact Grown.refl _
    · exact fun _ _ stored => Or.inl stored
    · exact fun _ _ isConn => Or.inl isConn
    · exact fun _ _ _ stored => Or.inl stored
    · exact fun _ => Or.inl rfl
    · exact fun found stored => Or.inl (by cases found <;> exact stored)
  | stopIce iceId =>
    cases stepped
    apply held.step
    · exact Grown.refl _
    · exact fun _ _ stored => Or.inl stored
    · exact fun _ _ isConn => Or.inl isConn
    · exact fun _ _ _ stored => Or.inl stored
    · exact fun _ => Or.inl rfl
    · exact fun found stored => Or.inl (by cases found <;> exact stored)

theorem begun_held : Held lib World.begun where
  cached := by
    intro addr channel stored
    cases stored
  conns := by
    intro n conn isConn
    cases isConn
  sdps := by
    intro channel kind sdp stored
    cases stored
  tasks := fun _ => trivial
  authentic := by
    intro write stored
    cases write <;> cases stored

end

/-- In every run where the requests that bind verify and the handshakes have the right
    certificates, all keys and addresses of streams are those of signalled peers. -/
theorem keys_authentic (lib : Libraries) (last : World)
    (run : Run (peers lib) (Guarded lib) World.begun last) : Authentic lib last := by
  have held : Held lib last :=
    run_keeps (Held lib) begun_held (fun _ _ _ held guarded stepped =>
      step_held held guarded stepped) run
  exact held.authentic

/-- Whether an event is guarded, for runs that are tried out. -/
def guardedHere (lib : Libraries) (world : World) : Event → Bool
  | .goes n answers =>
    match (world.conns n).map fun conn => (conn.first, conn.stage) with
    | some (first, Stage.bind channel) => !answers.redis ||
      ((world.redis.sdp channel .Local).bind (·.ice)).any fun ice => lib.integrity first ice.pwd
    | _ => true
  | .shakes n (some handshake) _ =>
    match world.tasks n with
    | .handshaking job => handshake.certificate.any fun cert =>
      lib.digest job.webrtc.remoteDtls.hash cert == job.webrtc.remoteDtls.fingerprint
    | _ => true
  | _ => true

theorem guarded_of_here {lib : Libraries} (world : World) (event : Event)
    (here : guardedHere lib world event = true) : Guarded lib world event := by
  cases event with
  | goes n answers =>
    intro conn channel isConn binds ok
    simp only [guardedHere, isConn, binds, ok, Option.map_some, Bool.not_true,
      Bool.false_or] at here
    obtain ⟨ice, hasIce, verifies⟩ := (Option.any_eq_true _ _).mp here
    obtain ⟨sdp, stored, isIce⟩ := Option.bind_eq_some_iff.mp hasIce
    exact ⟨sdp, ice, stored, isIce, verifies⟩
  | shakes n result streams =>
    intro job handshake isTask _ isResult
    subst isResult
    simp only [guardedHere, isTask] at here
    obtain ⟨cert, presented, matched⟩ := (Option.any_eq_true _ _).mp here
    exact ⟨cert, presented, beq_iff_eq.mp matched⟩
  | _ => trivial

/-- A binding request for `lu:ru` with its integrity under the password, and one without. -/
def binding_request : Bytes :=
  [0, 1, 0, 36, 33, 18, 164, 66, 1, 2, 3, 4, 5, 6, 7, 8, 9, 10, 11, 12, 0, 6, 0, 5, 108, 117, 58,
    114, 117, 0, 0, 0, 0, 8, 0, 20, 33, 51, 201, 151, 12, 21, 215, 231, 90, 99, 144, 163, 163, 210,
    166, 64, 238, 167, 45, 182]

def bare_request : Bytes :=
  [0, 1, 0, 12, 33, 18, 164, 66, 1, 2, 3, 4, 5, 6, 7, 8, 9, 10, 11, 12, 0, 6, 0, 5, 108, 117, 58,
    114, 117, 0, 0, 0]

def peer_fingerprint : String :=
  "F5:4F:96:D9:C6:21:3B:8D:78:58:7C:50:09:FF:58:33:5F:4E:FC:24:95:2E:F5:3F:2C:1A:FB:53:88:FE:DA:69"

def known : Libraries where
  decode packet :=
    if packet == binding_request || packet == bare_request then some ⟨.Request, some "lu:ru"⟩
    else none
  integrity packet pwd := packet == binding_request && pwd == "localpassword"
  digest hash cert := if hash == "sha-256" && cert == [48, 1] then peer_fingerprint
    else "75:8E:56:99:B7:75:4D:C6:2E:7E:BB:CF:63:DF:7E:AE:55:26:55:B7:E6:6F:C8:4D:C5:B4:9B:73:7B:F6:96:30"
  uuid_v5 _ := "da798e6c-bcf2-544c-96cc-03521db60944"

def described (ufrag pwd setup fingerprint : String) : SessionDescription where
  attributes := [⟨"ice-ufrag", some ufrag⟩, ⟨"ice-pwd", some pwd⟩, ⟨"setup", some setup⟩,
    ⟨"fingerprint", some ("sha-256 " ++ fingerprint)⟩]
  mediaDescriptions := [⟨[⟨"mid", some "0"⟩]⟩]

/-- The channel is described, a request comes in, and a handshake with it is gone through. -/
def call_from (addr : SocketAddr) (request cert : Bytes) : List Event :=
  [.described "c1" .Local (some (described "lu" "localpassword" "actpass" "00")),
    .described "c1" .Remote (some (described "ru" "remotepassword" "active" peer_fingerprint)),
    .named "lu:ru" (some "c1"), .arrives "m1" addr request] ++
    List.replicate 7 (.goes 0 {}) ++
    [.shakes 0 (some ⟨some cert, false, ⟨List.replicate 60 7, rfl⟩⟩)
      ["da798e6c-bcf2-544c-96cc-03521db60944"]] ++ List.replicate 3 (.installs 0 true)

theorem keys_authentic_signalled : ∃ last,
    runWhere (peers known) (guardedHere known) World.begun
      (call_from ⟨"192.0.2.1", 5000⟩ binding_request [48, 1]) = some last ∧
      (last.redis.mediaStream "da798e6c-bcf2-544c-96cc-03521db60944").crypto .Remote =
        some (cryptoOf true (List.replicate 60 7) .Remote) ∧ Authentic known last := by
  have ran : (runWhere (peers known) (guardedHere known) World.begun
      (call_from ⟨"192.0.2.1", 5000⟩ binding_request [48, 1])).any (fun last =>
        (last.redis.mediaStream "da798e6c-bcf2-544c-96cc-03521db60944").crypto .Remote ==
          some (cryptoOf true (List.replicate 60 7) .Remote)) = true := by
    decide +kernel
  obtain ⟨last, took, installed⟩ := (Option.any_eq_true _ _).mp ran
  exact ⟨last, took, beq_iff_eq.mp installed,
    keys_authentic known last (run_of_runWhere guarded_of_here _ took)⟩

/-- A request without integrity from elsewhere binds the address, and a handshake with
    another certificate gives the stream its keys. -/
theorem stranger_installed :
    ¬ ∀ lib last, Reaches (peers lib) World.begun last → Authentic lib last := by
  intro authentic
  let stranger : SocketAddr := ⟨"198.51.100.9", 6000⟩
  have ran : (runAll (peers known) World.begun (call_from stranger bare_request [48, 2])).any
      (fun last => (last.redis.mediaStream "da798e6c-bcf2-544c-96cc-03521db60944").peerAddr ==
        some stranger && last.history.bindings == [(stranger, "c1", bare_request)]) = true := by
    decide +kernel
  obtain ⟨last, took, installed⟩ := (Option.any_eq_true _ _).mp ran
  obtain ⟨stored, bindings⟩ := Bool.and_eq_true_iff.mp installed
  have genuine := authentic known last (reaches_of_runAll _ took) (.peerAddr _ stranger)
    (beq_iff_eq.mp stored)
  obtain ⟨_, _, _, _, _, _, request, _, _, ice, isBinding, _, _, _, _, _, verifies⟩ := genuine
  rw [beq_iff_eq.mp bindings] at isBinding
  cases List.mem_singleton.mp isBinding
  exact Bool.noConfusion verifies

end PeerAuthentication
