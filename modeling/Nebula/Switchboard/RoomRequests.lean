import Nebula.Lib.Interleaving

/- The room requests of web-socket connections. Each is handled by itself, one command to
   Redis at a time: the records of connections and channels that say who is in which room
   are in the state, every other answer is a choice of the step. -/
namespace RoomRequests
open Interleaving

structure User where
  uuid : String
  tenant_id : String
  password : String
  display_name : Option String

structure UserAuthClaim where
  room : String
  tenant_id : String
  call_id : String
  user : Option String
  name : String
  is_admin : Bool

/-- Signing and checking of claims with the switchboard's key. -/
structure Jwt where
  sign : UserAuthClaim → Option String
  verify : String → Option UserAuthClaim

structure RpcError where
  code : Int
  message : String

structure Credentials where
  username : Option String
  password : Option String
  device : Option String
  device_token : Option String

structure CreateTempRoom where
  call_id : String
  credentials : Credentials
  sdp : String
  invited : List String
  audio_muted : Option Bool
  video_muted : Option Bool

structure ConvertToRoom where
  call_id : String
  username : String
  invited : List String

structure AuthRequest where
  room : String
  call_id : String
  display_name : Option String
  room_password : Option String
  credentials : Credentials

structure AuthorizeMemberRequest where
  member : String
  auth_token : String

structure JoinRoomRequest where
  sdp : String
  auth_token : String
  audio_muted : Option Bool
  video_muted : Option Bool

inductive Notification where
  | still_waiting
  | leave_room
  | raise_hand
  | unraise_hand
  | start_screen_share
  | stop_screen_share
  | send_reaction (reaction : Option String)
  | mute_audio
  | unmute_audio
  | mute_video
  | unmute_video

/-- The params are none where they are not those of the method. -/
inductive Request where
  | register_room_api (request : Option Credentials)
  | create_temp_room (request : Option CreateTempRoom)
  | watch_room (auth_token : Option String)
  | convert_to_room (request : Option ConvertToRoom)
  | invite_exten (extens : Option (List String))
  | authenticate (request : Option AuthRequest)
  | get_room_members
  | get_waiting_room_members
  | allow_member (request : Option AuthorizeMemberRequest)
  | reject_member (request : Option AuthorizeMemberRequest)
  | remove_member (member : Option String)
  | join_room (request : Option JoinRoomRequest)
  | subscribe_room (members : Option (List String))
  | mute_member_audio (member : Option String)
  | unmute_member_audio (member : Option String)
  | mute_member_video (member : Option String)
  | unmute_member_video (member : Option String)
  | unknown
  | notification (method : Notification)

structure Rpc where
  proxy_host : String
  addr : String
  request : Request

inductive Reply where
  | empty
  | user (uuid : String)
  | room_id (room_id : String)
  | created (room_id sdp : String) (invited : List (String × String))
  | converted (room_id : String) (invited : List (String × String))
  | invited (invited : List (String × String))
  | auth_token (auth_token : String)
  | members (members : List String)
  | waiting_members (members : List (String × String))
  | joined (call_id sdp : String) (is_admin : Bool)
  | subscribed

structure RoomModel where
  uuid : String
  tenant_id : String
  is_open : Bool
  force_password : Bool
  force_waiting_room : Bool
  password : Option String

structure MemberInfo where
  name : String
  addr : String
  proxy_host : String

inductive Flag where
  | room_audio_muted
  | room_audio_muted_by_admin
  | room_video_muted
  | room_video_muted_by_admin
  | room_hand_raised
  | room_screen_share
  deriving DecidableEq

/-- nebula:wss:{addr} -/
structure Wss where
  room : Option String
  call_id : Option String
  waiting_room : Option String

/-- What the room requests use of nebula:channel:{call_id}. -/
structure ChannelRecord where
  api_addr : Option String
  proxy_host : Option String
  room : Option String
  room_admin : Option String
  flags : Flag → Option String

structure WssFields where
  room : Option String := none
  waiting_room : Option String := none
  call_id : String

def Wss.hmset (wss : Wss) (fields : WssFields) : Wss where
  room := fields.room.or wss.room
  call_id := some fields.call_id
  waiting_room := fields.waiting_room.or wss.waiting_room

/-- The fields of a channel that watching, converting and joining set, beside the address
    and the proxy of the connection. -/
structure RoomFields where
  room : String
  room_admin : Option String := none
  room_audio_muted : Option String := none
  room_video_muted : Option String := none

def ChannelRecord.hmset (record : ChannelRecord) (addr proxy_host : String)
    (fields : RoomFields) : ChannelRecord where
  api_addr := some addr
  proxy_host := some proxy_host
  room := some fields.room
  room_admin := fields.room_admin.or record.room_admin
  flags := fun flag => match flag with
    | .room_audio_muted => fields.room_audio_muted.or (record.flags flag)
    | .room_video_muted => fields.room_video_muted.or (record.flags flag)
    | _ => record.flags flag

def ChannelRecord.set_api_addr (record : ChannelRecord) (addr : String) : ChannelRecord :=
  { record with api_addr := some addr }

def ChannelRecord.set_flag (record : ChannelRecord) (flag : Flag) (value : String) : ChannelRecord :=
  { record with flags := Function.update record.flags flag (some value) }

def ChannelRecord.empty : ChannelRecord :=
  ⟨none, none, none, none, fun _ => none⟩

inductive Question where
  | get_user (uuid : String)
  | get_user_by_device_token (device device_token : String)
  | get_user_by_name (name : String)
  | get_room (room : String)
  | get_room_member (room user : String)
  | uuid
  | convert_to_room (call_id : String)
  | context_user (call_id : String)
  | join_room (call_id room sdp : String)
  | invite_exten (room tenant_id exten : String)
  | room_members (room : String)
  | waiting_room_members (room : String)
  | is_member (room member : String)
  | get_member_info (room member : String)
  | call (name : String)

/-- A channel that is converted answers its user, itself and the other channel; a call
    answers whether it succeeded. -/
def Answer : Question → Type
  | .get_user _ => Option User
  | .get_user_by_device_token _ _ => Option User
  | .get_user_by_name _ => Option User
  | .get_room _ => Option RoomModel
  | .get_room_member _ _ => Option Bool
  | .uuid => String
  | .convert_to_room _ => Except String (User × String × String)
  | .context_user _ => Option (Option User)
  | .join_room _ _ _ => Except String String
  | .invite_exten _ _ _ => Option (List (String × String))
  | .room_members _ => Option (List String)
  | .waiting_room_members _ => List String
  | .is_member _ _ => Bool
  | .get_member_info _ _ => Option MemberInfo
  | .call _ => Bool

/-- What a request still has to do. -/
inductive Op where
  | reply (result : Except RpcError Reply)
  | get_room_from_addr (next : Option (String × String × Bool) → Op)
  | hget_wss (field : Wss → Option String) (next : Option String → Op)
  | hget_channel (call_id : String) (field : ChannelRecord → Option String)
    (next : Option String → Op)
  | hmset_wss (fields : WssFields) (next : Bool → Op)
  | set_api_remote_addr (call_id : String) (next : Bool → Op)
  | hmset_channel (call_id : String) (fields : RoomFields) (next : Bool → Op)
  | hsetex (call_id : String) (flag : Flag) (value : String) (next : Op)
  | register_room_api (user : String) (next : Op)
  | ask (question : Question) (next : Answer question → Op)

def fail (code : Int) (message : String) : Op :=
  .reply (.error ⟨code, message⟩)

/-- A call whose result is not looked at. -/
def call (name : String) (next : Op) : Op :=
  .ask (.call name) fun _ => next

/-- A call that must succeed. -/
def call_or (name : String) (failed : Op) (next : Op) : Op :=
  .ask (.call name) fun (succeeded : Bool) => if succeeded then next else failed

def in_room (next : String → String → Bool → Op) : Op :=
  .get_room_from_addr fun found => match found with
    | some (room, channel, is_admin) => next room channel is_admin
    | none => fail 400 "not in a rom"

def as_admin (code : Int) (message : String) (next : String → String → Op) : Op :=
  in_room fun room channel is_admin => if is_admin then next room channel else fail code message

/-- A notification gets no answer, whatever becomes of it. -/
def unanswered : Op := .reply (.ok .empty)

/-- Tells every member but one, over the connection of its channel. -/
def tell_members (self : Option String) (name : String) (next : Op) : List String → Op
  | [] => next
  | member :: rest =>
    if self = some member then tell_members self name next rest
    else .hget_channel member (·.api_addr) fun addr =>
      .hget_channel member (·.proxy_host) fun _ =>
        if addr.getD "" = "" then tell_members self name next rest
        else call name (tell_members self name next rest)

/-- The notifications that set a flag of the own channel and tell the other members. -/
def own_flag (flag : Flag) (value : String) (name : String) : Op :=
  .get_room_from_addr fun found => match found with
    | some (room, channel, _) => .hsetex channel flag value <|
        .ask (.room_members room) fun (members : Option (List String)) =>
          tell_members (some channel) name unanswered (members.getD [])
    | none => unanswered

def mute_audio : Op := own_flag .room_audio_muted "yes" "member_mute_audio"

def unmute_audio : Op := own_flag .room_audio_muted "no" "member_unmute_audio"

def mute_video : Op := own_flag .room_video_muted "yes" "member_mute_video"

def unmute_video : Op := own_flag .room_video_muted "no" "member_unmute_video"

def start_screen_share : Op := own_flag .room_screen_share "yes" "member_start_screen_share"

def stop_screen_share : Op := own_flag .room_screen_share "no" "member_stop_screen_share"

def raise_hand : Op := own_flag .room_hand_raised "yes" "member_raise_hand"

def unraise_hand : Op := own_flag .room_hand_raised "no" "member_unraise_hand"

def send_reaction (reaction : Option String) : Op :=
  match reaction with
  | none => unanswered
  | some _ => .get_room_from_addr fun found => match found with
    | some (room, channel, _) => .ask (.room_members room) fun (members : Option (List String)) =>
        tell_members (some channel) "member_send_reaction" unanswered (members.getD [])
    | none => unanswered

/-- The admins among the members of a room hear of a waiting member. -/
def notify_waiting (room : String) (next : Op) : List String → Op
  | [] => next
  | member :: rest =>
    .hget_channel member (·.room_admin) fun room_admin =>
      if room_admin = some "yes" then
        .ask (.get_member_info room member) fun (info : Option MemberInfo) => match info with
          | some _ => call "notifiy_member_waiting" (notify_waiting room next rest)
          | none => notify_waiting room next rest
      else notify_waiting room next rest

def still_waiting : Op :=
  .hget_wss (·.call_id) fun call_id => match call_id with
    | none => unanswered
    | some call_id => .hget_wss (·.waiting_room) fun waiting_room => match waiting_room with
      | none => unanswered
      | some room => .ask (.get_member_info room call_id) fun (info : Option MemberInfo) =>
          match info with
          | none => unanswered
          | some _ => .ask (.room_members room) fun (members : Option (List String)) =>
              notify_waiting room unanswered (members.getD [])

def leave_room : Op :=
  .hget_wss (·.call_id) fun call_id => match call_id with
    | none => unanswered
    | some call_id => .hget_channel call_id (·.room) fun room =>
        if room.getD "" = "" then
          .hget_wss (·.waiting_room) fun waiting_room => match waiting_room with
            | none => unanswered
            | some room => call "srem waiting_room" <|
                .ask (.room_members room) fun (members : Option (List String)) =>
                  tell_members none "member_leave_waiting_room" unanswered
                    (members.getD [])
        else call "Channel::leave_room" unanswered

/-- What an admin does with the mark of a muted member: `before` is what the mark must
    say, and `otherwise` the refusal where it says the other thing. -/
def member_muted (refusal : String) (flag : Flag) (value : String) (before : Bool)
    (otherwise : String) (change tell : String) (member : Option String) : Op :=
  as_admin 400 refusal fun room _ => match member with
    | none => fail 400 "no member in request"
    | some member => .ask (.is_member room member) fun (is_member : Bool) =>
        if !is_member then fail 400 "no such member in the room"
        else .hget_channel member (·.flags flag) fun muted =>
          if decide (muted = some "yes") != before then fail 400 otherwise
          else call change <| .hsetex member flag value <|
            .ask (.room_members room) fun (members : Option (List String)) =>
              tell_members none tell (.reply (.ok .empty)) (members.getD [])

def mute_member_audio : Option String → Op :=
  member_muted "only admin can mute other member" .room_audio_muted_by_admin "yes" false
    "member is already muted by an admin" "Channel::mute_audio" "member_mute_audio"

def unmute_member_audio : Option String → Op :=
  member_muted "only admin can unmute other member" .room_audio_muted_by_admin "no" true
    "member is not muted by an admin" "Channel::unmute_audio" "member_unmute_audio"

def mute_member_video : Option String → Op :=
  member_muted "only admin can mute other member" .room_video_muted_by_admin "yes" false
    "member is already muted by an admin" "Channel::mute_video" "member_mute_video"

def unmute_member_video : Option String → Op :=
  member_muted "only admin can unmute other member" .room_video_muted_by_admin "no" true
    "member is not muted by an admin" "Channel::unmute_video" "member_unmute_video"

def subscribe_room (members : Option (List String)) : Op :=
  match members with
  | none => fail 500 "invalid request"
  | some _ => .get_room_from_addr fun found => match found with
    | none => fail 500 "not in a rom"
    | some _ => call_or "Channel::subscribe_room" (fail 500 "") (.reply (.ok .subscribed))

def get_room_members : Op :=
  in_room fun room _ _ => .ask (.room_members room) fun (members : Option (List String)) =>
    .reply (.ok (.members (members.getD [])))

/-- The waiting members that have left their name. -/
def waiting_names (room : String) (named : List (String × String)) : List String → Op
  | [] => .reply (.ok (.waiting_members named))
  | member :: rest => .ask (.get_member_info room member) fun (info : Option MemberInfo) =>
      match info with
      | some info => waiting_names room (named ++ [(member, info.name)]) rest
      | none => waiting_names room named rest

def get_waiting_room_members : Op :=
  as_admin 403 "only admin can get waiting room members" fun room _ =>
    .ask (.waiting_room_members room) fun (members : List String) => waiting_names room [] members

def remove_member (member : Option String) : Op :=
  match member with
  | none => fail 400 "invalid request"
  | some _ => as_admin 403 "only admin can get waiting room members" fun _ _ =>
      call "Channel::leave_room" (.reply (.ok .empty))

/-- allow_member and reject_member go by their token and not by the connection. -/
def authorize_member (jwt : Jwt) (refusal : String) (answer : MemberInfo → UserAuthClaim → Op)
    (request : Option AuthorizeMemberRequest) : Op :=
  match request with
  | none => fail 400 "invalid request"
  | some request => match jwt.verify request.auth_token with
    | none => fail (-32603) "Internal error"
    | some claims =>
      if !claims.is_admin then fail 403 refusal
      else .ask (.is_member claims.room request.member) fun (is_member : Bool) =>
        if is_member then fail 404 "member already in room"
        else .ask (.get_member_info claims.room request.member) fun (info : Option MemberInfo) =>
          match info with
          | none => fail 404 "member didn't authenticate"
          | some info => answer info
              ⟨claims.room, claims.tenant_id, request.member, none, info.name, false⟩

def reject_member (jwt : Jwt) : Option AuthorizeMemberRequest → Op :=
  authorize_member jwt "not authorized to reject another member in" fun _ _ =>
    call "notifiy_room_rejected" <| call "notify_member_rejected" (.reply (.ok .empty))

def signed (jwt : Jwt) (claims : UserAuthClaim) (next : String → Op) : Op :=
  match jwt.sign claims with
  | none => fail (-32603) "Internal error"
  | some token => next token

def allow_member (jwt : Jwt) : Option AuthorizeMemberRequest → Op :=
  authorize_member jwt "not authorized to allow another member in" fun _ claims =>
    signed jwt claims fun _ =>
      call "notifiy_room_allowed" <| call "notify_member_allowed" (.reply (.ok .empty))

/-- The user of a device token, or else of a name and its password. -/
def login (credentials : Credentials) (next : Option User → Op) : Op :=
  match credentials.device with
  | some device =>
    .ask (.get_user_by_device_token device (credentials.device_token.getD "")) next
  | none => match credentials.username with
    | some username => .ask (.get_user_by_name username) fun (user : Option User) =>
        next (user.filter fun user => user.password = credentials.password.getD "")
    | none => next none

def room_password_auth (expected password : Option String) : Bool :=
  expected.getD "" ≠ "" && expected.getD "" = password.getD ""

def is_authenticated (request : AuthRequest) (room_password : Option String)
    (next : String → Option User → Option Bool → Op) : Op :=
  let by_password (user : Option User) : Op :=
    let display_name := ((user.bind (·.display_name)).or request.display_name).getD ""
    if room_password_auth room_password request.room_password then
      next display_name user (some false)
    else next display_name user none
  login request.credentials fun user => match user with
    | some user => .ask (.get_room_member request.room user.uuid) fun (member : Option Bool) =>
        match member with
        | some admin => next (user.display_name.getD "") (some user) (some admin)
        | none => by_password (some user)
    | none => by_password none

def register_room_api (request : Option Credentials) : Op :=
  match request with
  | none => fail 400 "invalid request"
  | some request => login request fun user => match user with
    | none => fail 401 "Can't authenticate"
    | some user => .register_room_api user.uuid <|
        call "sadd register_room_api" (.reply (.ok (.user user.uuid)))

def yes_no (muted : Option Bool) : String := if muted.getD false then "yes" else "no"

def endpoint_join_room (room_id call_id sdp : String) (audio_muted video_muted : Option Bool)
    (is_admin : Bool) (next : Except String (String × String) → Op) : Op :=
  let failed := next (.error "")
  call_or "create_cdr" failed <| call_or "set_call_context" failed <|
    .set_api_remote_addr call_id fun stored => if !stored then failed else
      call_or "update_cdr" failed <| call "sadd channels_for_tenant" <| call "sadd all_channels" <|
        call "expire channel" <| call "srem waiting_room" <|
          .ask (.join_room call_id room_id sdp) fun (joined : Except String String) =>
            match joined with
            | .error error => next (.error error)
            | .ok answer_sdp =>
              .hmset_wss { room := some room_id, call_id := call_id } fun stored =>
                if !stored then failed else
                  .hmset_channel call_id { room := room_id,
                                           room_admin := some (if is_admin then "yes" else "no"),
                                           room_audio_muted := some (yes_no audio_muted),
                                           room_video_muted := some (yes_no video_muted) }
                    fun stored => if !stored then failed else next (.ok (call_id, answer_sdp))

/-- The answer of a join that has failed or gone on. -/
def joined (resp : Except String (String × String)) (next : String → String → Op) : Op :=
  match resp with
  | .error error => fail 500 error
  | .ok (call_id, sdp) => next call_id sdp

def join_room (jwt : Jwt) (request : Option JoinRoomRequest) : Op :=
  match request with
  | none => fail 500 "invalid request"
  | some request => match jwt.verify request.auth_token with
    | none => fail 500 "authentication error"
    | some claims =>
      let join := endpoint_join_room claims.room claims.call_id request.sdp request.audio_muted
        request.video_muted claims.is_admin fun resp => joined resp fun call_id sdp =>
          .reply (.ok (.joined call_id sdp claims.is_admin))
      match claims.user with
      | some user => .ask (.get_user user) fun (user : Option User) => match user with
        | none => fail 500 "can't authenticate user"
        | some _ => join
      | none => join

/-- The extensions that could be invited. -/
def invite_extens (room tenant_id : String) (next : List (String × String) → Op)
    (invited : List (String × String)) : List String → Op
  | [] => next invited
  | exten :: rest => .ask (.invite_exten room tenant_id exten) fun
      (local_invited : Option (List (String × String))) =>
        invite_extens room tenant_id next (invited ++ local_invited.getD []) rest

def create_temp_room (request : Option CreateTempRoom) : Op :=
  match request with
  | none => fail 400 "invalid request"
  | some request => login request.credentials fun user => match user with
    | none => fail 401 "Can't authenticate"
    | some user => .ask .uuid fun (uuid : String) =>
        let room_id := user.tenant_id ++ ":" ++ uuid
        endpoint_join_room room_id request.call_id request.sdp request.audio_muted
          request.video_muted true fun resp => joined resp fun _ sdp =>
            .ask (.context_user request.call_id) fun (context : Option (Option User)) =>
              match context with
              | none => fail 500 ""
              | some _ => .ask .uuid fun (_ : String) => call "hset invitation" <|
                  invite_extens room_id user.tenant_id
                    (fun invited => .reply (.ok (.created room_id sdp invited))) []
                    request.invited

def invite_exten_to_room (extens : Option (List String)) : Op :=
  as_admin 403 "only admin can invite" fun room channel => match extens with
    | none => fail 400 "invalid request"
    | some extens => .ask (.context_user channel) fun (context : Option (Option User)) =>
        match context with
        | none => fail 500 "internal error"
        | some none => fail 400 "invite can only from a user"
        | some (some user) => .ask .uuid fun (_ : String) => call "hset invitation" <|
            invite_extens room user.tenant_id (fun invited => .reply (.ok (.invited invited))) []
              extens

def watch_room (jwt : Jwt) (auth_token : Option String) : Op :=
  match auth_token with
  | none => fail 400 "invalid request"
  | some auth_token => match jwt.verify auth_token with
    | none => fail 401 "authentication error"
    | some claims =>
      .hmset_wss { room := some claims.room, call_id := claims.call_id } fun _ =>
        .hmset_channel claims.call_id { room := claims.room } fun _ =>
          .reply (.ok (.room_id claims.room))

def convert_to_room (request : Option ConvertToRoom) : Op :=
  match request with
  | none => fail 400 "invalid request"
  | some request => .ask (.convert_to_room request.call_id) fun
      (converted : Except String (User × String × String)) => match converted with
      | .error error => fail 500 error
      | .ok (user, _, _) => .ask .uuid fun (uuid : String) =>
          let room_id := user.tenant_id ++ ":" ++ uuid
          call "Channel::sip_join_room" <| call "Channel::sip_join_room" <|
            .ask .uuid fun (_ : String) => call "hset invitation" <|
              invite_extens room_id user.tenant_id (fun invited =>
                .hmset_wss { room := some room_id, call_id := request.call_id } fun _ =>
                  .hmset_channel request.call_id { room := room_id, room_admin := some "yes" }
                    fun _ => .reply (.ok (.converted room_id invited))) [] request.invited

def waiting_room (room call_id : String) (next : Op) : Op :=
  call "set_member_info" <|
    .hmset_wss { waiting_room := some room, call_id := call_id } fun _ =>
      call "sadd waiting_room" <|
        .ask (.room_members room) fun (members : Option (List String)) =>
          notify_waiting room next (members.getD [])

/-- What becomes of one who has shown nothing, and of one who has. -/
def let_in (status : Option Bool) (absent : Op) (next : Bool → Op) : Op :=
  match status with
  | none => absent
  | some is_admin => next is_admin

def authenticate (jwt : Jwt) (request : Option AuthRequest) : Op :=
  match request with
  | none => fail 400 "invalid request"
  | some request => .ask (.get_room request.room) fun (room_model : Option RoomModel) =>
    match room_model with
    | none => fail 404 "room doesn't exist"
    | some room_model =>
      let grant (display_name : String) (user : Option User) (is_admin : Bool) : Op :=
        call "set_member_info" <|
          signed jwt ⟨request.room, room_model.tenant_id, request.call_id,
            user.map (·.uuid), display_name, is_admin⟩ fun token =>
              .reply (.ok (.auth_token token))
      let wait (message : String) : Op :=
        waiting_room room_model.uuid request.call_id (fail 403 message)
      let not_authenticated := wait "not authenticated, waiting to be accepted"
      let not_admin := wait "not admin, waiting to be accepted"
      let anyone := is_authenticated request room_model.password fun display_name user status =>
        grant display_name user (status.getD false)
      let admins := is_authenticated request room_model.password fun display_name user status =>
        let_in status not_authenticated fun is_admin =>
          if is_admin then grant display_name user is_admin else not_admin
      let wrong_password := fail 401 "You'll need the correct password to get in the room"
      let password_fits := room_password_auth room_model.password request.room_password
      if room_model.is_open then anyone
      else if room_model.force_password && room_model.force_waiting_room then
        if password_fits then admins else wrong_password
      else if room_model.force_password then
        if password_fits then anyone else wrong_password
      else if room_model.force_waiting_room then admins
      else is_authenticated request room_model.password fun display_name user status =>
        let_in status not_authenticated (grant display_name user)

def handle_notification : Notification → Op
  | .still_waiting => still_waiting
  | .leave_room => leave_room
  | .raise_hand => raise_hand
  | .unraise_hand => unraise_hand
  | .start_screen_share => start_screen_share
  | .stop_screen_share => stop_screen_share
  | .send_reaction reaction => send_reaction reaction
  | .mute_audio => mute_audio
  | .unmute_audio => unmute_audio
  | .mute_video => mute_video
  | .unmute_video => unmute_video

def handle_request (jwt : Jwt) : Request → Op
  | .register_room_api request => register_room_api request
  | .create_temp_room request => create_temp_room request
  | .watch_room auth_token => watch_room jwt auth_token
  | .convert_to_room request => convert_to_room request
  | .invite_exten extens => invite_exten_to_room extens
  | .authenticate request => authenticate jwt request
  | .get_room_members => get_room_members
  | .get_waiting_room_members => get_waiting_room_members
  | .allow_member request => allow_member jwt request
  | .reject_member request => reject_member jwt request
  | .remove_member member => remove_member member
  | .join_room request => join_room jwt request
  | .subscribe_room members => subscribe_room members
  | .mute_member_audio member => mute_member_audio member
  | .unmute_member_audio member => unmute_member_audio member
  | .mute_member_video member => mute_member_video member
  | .unmute_member_video member => unmute_member_video member
  | .unknown => fail (-32601) "Method not found"
  | .notification method => handle_notification method

def Request.admin_only : Request → Bool
  | .invite_exten _ | .get_waiting_room_members | .remove_member _ | .mute_member_audio _
  | .unmute_member_audio _ | .mute_member_video _ | .unmute_member_video _ => true
  | _ => false

/-- get_room_from_addr reads the call id of the connection, its room and its rights one
    after the other. -/
inductive Place where
  | doing (op : Op)
  | looking_room (call_id : String) (next : Option (String × String × Bool) → Op)
  | looking_admin (call_id room : String) (next : Option (String × String × Bool) → Op)

/-- The last three fields are no part of the code: what the request has been answered,
    for which rooms it has given a channel the rights of an admin, and for which its
    look-up has found them. -/
structure Proc where
  rpc : Rpc
  place : Place
  heard : List (Sigma Answer)
  joined : List String
  admitted : List String

/-- What is left to do, a look-up that has begun included. -/
def Place.op : Place → Op
  | .doing op => op
  | .looking_room _ next => .get_room_from_addr next
  | .looking_admin _ _ next => .get_room_from_addr next

structure Shared where
  wss : String → Wss
  channels : String → ChannelRecord
  register_room_api : String → Option String

/-- A command may fail, and one that fails may still have been carried out. -/
structure Choice where
  carried_out : Bool := true
  confirmed : Bool := true
  answer : (question : Question) → Answer question

def Shared.set_wss (shared : Shared) (addr : String) (wss : Wss) : Shared :=
  { shared with wss := Function.update shared.wss addr wss }

def Shared.set_channel (shared : Shared) (call_id : String) (record : ChannelRecord) : Shared :=
  { shared with channels := Function.update shared.channels call_id record }

def Shared.register (shared : Shared) (addr user : String) : Shared :=
  { shared with register_room_api := Function.update shared.register_room_api addr (some user) }

def Proc.goOn (proc : Proc) (op : Op) : Proc :=
  { proc with place := .doing op }

/-- The reading of a field, which fails where there is none. -/
def Choice.read (choice : Choice) (field : Option String) : Option String :=
  if choice.confirmed then field else none

def Choice.write (choice : Choice) (before after : Shared) : Shared :=
  if choice.carried_out then after else before

def step (choice : Choice) (shared : Shared) (proc : Proc) : Option (Shared × Proc) :=
  let addr := proc.rpc.addr
  match proc.place with
  | .doing (.reply _) => none
  | .doing (.get_room_from_addr next) => match choice.read (shared.wss addr).call_id with
    | some call_id => some (shared, { proc with place := .looking_room call_id next })
    | none => some (shared, proc.goOn (next none))
  | .looking_room call_id next => match choice.read (shared.channels call_id).room with
    | some room => some (shared, { proc with place := .looking_admin call_id room next })
    | none => some (shared, proc.goOn (next none))
  | .looking_admin call_id room next =>
    let is_admin := decide (choice.read (shared.channels call_id).room_admin = some "yes")
    some (shared, { proc with
      place := .doing (next (some (room, call_id, is_admin)))
      admitted := if is_admin then room :: proc.admitted else proc.admitted })
  | .doing (.hget_wss field next) =>
    some (shared, proc.goOn (next (choice.read (field (shared.wss addr)))))
  | .doing (.hget_channel call_id field next) =>
    some (shared, proc.goOn (next (choice.read (field (shared.channels call_id)))))
  | .doing (.hmset_wss fields next) =>
    some (choice.write shared (shared.set_wss addr ((shared.wss addr).hmset fields)),
      proc.goOn (next choice.confirmed))
  | .doing (.set_api_remote_addr call_id next) =>
    some (choice.write shared (shared.set_channel call_id
        ((shared.channels call_id).set_api_addr addr)), proc.goOn (next choice.confirmed))
  | .doing (.hmset_channel call_id fields next) =>
    some (choice.write shared (shared.set_channel call_id
        ((shared.channels call_id).hmset addr proc.rpc.proxy_host fields)),
      { proc with
        place := .doing (next choice.confirmed)
        joined := if choice.carried_out && fields.room_admin = some "yes"
          then fields.room :: proc.joined else proc.joined })
  | .doing (.hsetex call_id flag value next) =>
    some (choice.write shared (shared.set_channel call_id
        ((shared.channels call_id).set_flag flag value)), proc.goOn next)
  | .doing (.register_room_api user next) =>
    some (choice.write shared (shared.register addr user), proc.goOn next)
  | .doing (.ask question next) =>
    let answer := choice.answer question
    some (shared, { proc with
      place := .doing (next answer)
      heard := ⟨question, answer⟩ :: proc.heard })

/-- The record of a channel expires, or monitor_channels deletes it. -/
inductive Event where
  | channel_deleted (call_id : String)

def happen : Event → Shared → Option Shared
  | .channel_deleted call_id, shared => some (shared.set_channel call_id ChannelRecord.empty)

def rooms : System Shared Proc Choice Event where
  step := fun _ => step
  outside := happen

/-- The requests come at any time: one that has not come is one that has not begun. -/
def start (jwt : Jwt) (rpcs : Nat → Rpc) : World Shared Proc where
  shared := ⟨fun _ => ⟨none, none, none⟩, fun _ => ChannelRecord.empty, fun _ => none⟩
  procs := fun pid =>
    ⟨rpcs pid, .doing (handle_request jwt (rpcs pid).request), [], [], []⟩

end RoomRequests
