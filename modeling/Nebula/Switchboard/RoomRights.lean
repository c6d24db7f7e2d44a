import Nebula.Switchboard.RoomRequests

/- What each room request may do to rights: it gives those of an admin only where it
   shows a token, a login or a call of its own, and an admin-only request does nothing
   before a look-up has found them. -/
namespace RoomRights
open RoomRequests

/-- The answers to a request say that its credentials are those of the user. -/
def LoggedIn (heard : List (Sigma Answer)) (credentials : Credentials) (user : User) : Prop :=
  match credentials.device with
  | some device => (⟨.get_user_by_device_token device (credentials.device_token.getD ""),
      (some user : Option User)⟩ : Sigma Answer) ∈ heard
  | none => ∃ username, credentials.username = some username ∧
      (⟨.get_user_by_name username, (some user : Option User)⟩ : Sigma Answer) ∈ heard ∧
        user.password = credentials.password.getD ""

/-- What gives a request the right to make its connection the admin of a room: a verified
    token that says so, the credentials of a user, or a call of the registered user. -/
def Shows (jwt : Jwt) (registered : String → Prop) (request : Request)
    (heard : List (Sigma Answer)) (room : String) : Prop :=
  match request with
  | .join_room (some request) => ∃ claims, jwt.verify request.auth_token = some claims ∧
      claims.is_admin = true ∧ claims.room = room
  | .create_temp_room (some request) => ∃ user, LoggedIn heard request.credentials user
  | .convert_to_room (some request) => ∃ user self other,
      (⟨.convert_to_room request.call_id, (.ok (user, self, other) :
        Except String (User × String × String))⟩ : Sigma Answer) ∈ heard ∧ registered user.uuid
  | _ => False

/-- Every write of rights in what is left of a request is one it may make. -/
def Sound (jwt : Jwt) (request : Request) : List (Sigma Answer) → Op → Prop
  | _, .reply _ => True
  | heard, .get_room_from_addr next => ∀ found, Sound jwt request heard (next found)
  | heard, .hget_wss _ next => ∀ found, Sound jwt request heard (next found)
  | heard, .hget_channel _ _ next => ∀ found, Sound jwt request heard (next found)
  | heard, .hmset_wss _ next => ∀ confirmed, Sound jwt request heard (next confirmed)
  | heard, .set_api_remote_addr _ next => ∀ confirmed, Sound jwt request heard (next confirmed)
  | heard, .hmset_channel _ fields next =>
    (fields.room_admin = some "yes" →
      Shows jwt (fun _ => True) request heard fields.room) ∧
    ∀ confirmed, Sound jwt request heard (next confirmed)
  | heard, .hsetex _ _ _ next => Sound jwt request heard next
  | heard, .register_room_api uuid next =>
    (∃ credentials user, request = .register_room_api (some credentials) ∧
      LoggedIn heard credentials user ∧ user.uuid = uuid) ∧ Sound jwt request heard next
  | heard, .ask question next => ∀ answer, Sound jwt request (⟨question, answer⟩ :: heard) (next answer)

theorem logged_in_mono {heard more : List (Sigma Answer)} {credentials : Credentials} {user : User}
    (grown : heard ⊆ more) (loggedIn : LoggedIn heard credentials user) :
    LoggedIn more credentials user := by
  unfold LoggedIn at loggedIn ⊢
  split at loggedIn
  · exact grown loggedIn
  · obtain ⟨username, named, told, password⟩ := loggedIn
    exact ⟨username, named, grown told, password⟩

theorem shows_mono {jwt : Jwt} {registered later : String → Prop} {request : Request}
    {heard more : List (Sigma Answer)} {room : String} (grown : heard ⊆ more)
    (kept : ∀ uuid, registered uuid → later uuid)
    (shows_right : Shows jwt registered request heard room) : Shows jwt later request more room := by
  unfold Shows at shows_right ⊢
  split at shows_right
  · exact shows_right
  · obtain ⟨user, loggedIn⟩ := shows_right
    exact ⟨user, logged_in_mono grown loggedIn⟩
  · obtain ⟨user, self, other, told, stands⟩ := shows_right
    exact ⟨user, self, other, grown told, kept user.uuid stands⟩
  · exact shows_right

theorem sound_mono {jwt : Jwt} {request : Request} (op : Op) : ∀ {heard more : List (Sigma Answer)},
    heard ⊆ more → Sound jwt request heard op → Sound jwt request more op := by
  induction op with
  | reply result => intro _ _ _ _; trivial
  | get_room_from_addr next ih => intro _ _ grown sound found; exact ih found grown (sound found)
  | hget_wss field next ih => intro _ _ grown sound found; exact ih found grown (sound found)
  | hget_channel call_id field next ih =>
    intro _ _ grown sound found
    exact ih found grown (sound found)
  | hmset_wss fields next ih =>
    intro _ _ grown sound confirmed
    exact ih confirmed grown (sound confirmed)
  | set_api_remote_addr call_id next ih =>
    intro _ _ grown sound confirmed
    exact ih confirmed grown (sound confirmed)
  | hmset_channel call_id fields next ih =>
    intro _ _ grown sound
    constructor
    · intro grants
      exact shows_mono grown (fun _ stands => stands) (sound.1 grants)
    · intro confirmed
      exact ih confirmed grown (sound.2 confirmed)
  | hsetex call_id flag value next ih => intro _ _ grown sound; exact ih grown sound
  | register_room_api uuid next ih =>
    intro _ _ grown sound
    obtain ⟨⟨credentials, user, isRegister, loggedIn, same⟩, rest⟩ := sound
    exact ⟨⟨credentials, user, isRegister, logged_in_mono grown loggedIn, same⟩, ih grown rest⟩
  | ask question next ih =>
    intro _ _ grown sound answer
    exact ih answer (List.cons_subset_cons _ grown) (sound answer)

section
variable {jwt : Jwt} {request : Request} {heard : List (Sigma Answer)}

theorem sound_reply (result : Except RpcError Reply) : Sound jwt request heard (.reply result) :=
  trivial

theorem sound_ask {question : Question} {next : Answer question → Op}
    (sound : ∀ answer, Sound jwt request heard (next answer)) :
    Sound jwt request heard (.ask question next) := by
  intro answer
  exact sound_mono _ (List.subset_cons_self _ _) (sound answer)

theorem sound_call {name : String} {next : Op} (sound : Sound jwt request heard next) :
    Sound jwt request heard (call name next) :=
  sound_ask fun _ => sound

theorem sound_call_or {name : String} {failed next : Op} (refused : Sound jwt request heard failed)
    (sound : Sound jwt request heard next) : Sound jwt request heard (call_or name failed next) := by
  apply sound_ask
  intro (succeeded : Bool)
  cases succeeded
  · exact refused
  · exact sound

theorem tell_members_sound (self : Option String) (name : String) {next : Op}
    (sound : Sound jwt request heard next) (members : List String) :
    Sound jwt request heard (tell_members self name next members) := by
  induction members with
  | nil => exact sound
  | cons member rest ih =>
    unfold tell_members
    split
    · exact ih
    · intro addr proxy_host
      dsimp only
      split
      · exact ih
      · exact sound_call ih

theorem notify_waiting_sound (room : String) {next : Op} (sound : Sound jwt request heard next)
    (members : List String) : Sound jwt request heard (notify_waiting room next members) := by
  induction members with
  | nil => exact sound
  | cons member rest ih =>
    unfold notify_waiting
    intro room_admin
    dsimp only
    split
    · apply sound_ask
      intro (info : Option MemberInfo)
      cases info with
      | none => exact ih
      | some info => exact sound_call ih
    · exact ih

theorem waiting_names_sound (room : String) (members : List String) :
    ∀ named, Sound jwt request heard (waiting_names room named members) := by
  induction members with
  | nil => intro named; trivial
  | cons member rest ih =>
    intro named
    unfold waiting_names
    apply sound_ask
    intro (info : Option MemberInfo)
    cases info with
    | none => exact ih named
    | some info => exact ih _

theorem invite_extens_sound (room tenant_id : String) {next : List (String × String) → Op}
    (sound : ∀ invited, Sound jwt request heard (next invited)) (extens : List String) :
    ∀ invited, Sound jwt request heard (invite_extens room tenant_id next invited extens) := by
  induction extens with
  | nil => exact sound
  | cons exten rest ih =>
    intro invited
    unfold invite_extens
    apply sound_ask
    intro local_invited
    exact ih _

theorem own_flag_sound (flag : Flag) (value name : String) :
    Sound jwt request heard (own_flag flag value name) := by
  intro found
  cases found with
  | none => trivial
  | some place =>
    apply sound_ask
    intro members
    exact tell_members_sound _ _ (sound_reply _) _

theorem as_admin_sound {code : Int} {message : String} {next : String → String → Op}
    (sound : ∀ room channel, Sound jwt request heard (next room channel)) :
    Sound jwt request heard (as_admin code message next) := by
  intro found
  rcases found with _ | ⟨room, channel, is_admin⟩
  · trivial
  · cases is_admin with
    | true => exact sound room channel
    | false => trivial

theorem member_muted_sound (refusal : String) (flag : Flag) (value : String) (before : Bool)
    (otherwise change tell : String) (member : Option String) :
    Sound jwt request heard (member_muted refusal flag value before otherwise change tell member) := by
  apply as_admin_sound
  intro room _
  cases member with
  | none => trivial
  | some member =>
    apply sound_ask
    intro (is_member : Bool)
    cases is_member with
    | false => trivial
    | true =>
      intro muted
      dsimp only
      split
      · trivial
      · apply sound_call
        apply sound_ask
        intro members
        exact tell_members_sound _ _ (sound_reply _) _

theorem authorize_member_sound {refusal : String} {answer : MemberInfo → UserAuthClaim → Op}
    (sound : ∀ info claims, Sound jwt request heard (answer info claims))
    (params : Option AuthorizeMemberRequest) :
    Sound jwt request heard (authorize_member jwt refusal answer params) := by
  cases params with
  | none => trivial
  | some params =>
    unfold authorize_member
    dsimp only
    split
    · trivial
    · split
      · trivial
      · apply sound_ask
        intro (is_member : Bool)
        cases is_member with
        | true => trivial
        | false =>
          apply sound_ask
          intro (info : Option MemberInfo)
          cases info with
          | none => trivial
          | some info => exact sound _ _

/-- What comes after a login may use that the user has logged in. -/
theorem login_sound (credentials : Credentials) {next : Option User → Op}
    (nobody : Sound jwt request heard (next none))
    (sound : ∀ user more, heard ⊆ more → LoggedIn more credentials user →
      Sound jwt request more (next (some user))) :
    Sound jwt request heard (login credentials next) := by
  unfold login
  cases device : credentials.device with
  | some device =>
    intro (answer : Option User)
    cases answer with
    | none => exact sound_mono _ (List.subset_cons_self _ _) nobody
    | some user =>
      apply sound user _ (List.subset_cons_self _ _)
      simp [LoggedIn, device]
  | none =>
    cases named : credentials.username with
    | none => exact nobody
    | some username =>
      intro (answer : Option User)
      have none_kept := sound_mono _ (List.subset_cons_self
        (⟨.get_user_by_name username, answer⟩ : Sigma Answer) heard) nobody
      cases answer with
      | none => exact none_kept
      | some user =>
        simp only [Option.filter_some, decide_eq_true_eq]
        split
        · rename_i password
          apply sound user _ (List.subset_cons_self _ _)
          simp [LoggedIn, device, named, password]
        · exact none_kept

theorem is_authenticated_sound (params : AuthRequest) (room_password : Option String)
    {next : String → Option User → Option Bool → Op}
    (sound : ∀ display_name user status, Sound jwt request heard (next display_name user status)) :
    Sound jwt request heard (is_authenticated params room_password next) := by
  have by_password : ∀ user display_name, Sound jwt request heard
      (if room_password_auth room_password params.room_password
        then next display_name user (some false) else next display_name user none) := by
    intro user display_name
    split
    · exact sound _ _ _
    · exact sound _ _ _
  apply login_sound
  · exact by_password none _
  · intro user more grown _
    apply sound_mono _ grown
    apply sound_ask
    intro (member : Option Bool)
    cases member with
    | some admin => exact sound _ _ _
    | none => exact by_password (some user) _

theorem endpoint_join_room_sound {room_id call_id sdp : String}
    {audio_muted video_muted : Option Bool} {is_admin : Bool}
    {next : Except String (String × String) → Op}
    (right : is_admin = true → Shows jwt (fun _ => True) request heard room_id)
    (sound : ∀ resp, Sound jwt request heard (next resp)) :
    Sound jwt request heard
      (endpoint_join_room room_id call_id sdp audio_muted video_muted is_admin next) := by
  have failed := sound (.error "")
  apply sound_call_or failed
  apply sound_call_or failed
  intro stored
  cases stored with
  | false => exact failed
  | true =>
    apply sound_call_or failed
    apply sound_call
    apply sound_call
    apply sound_call
    apply sound_call
    apply sound_ask
    intro (joined : Except String String)
    cases joined with
    | error error => exact sound _
    | ok answer_sdp =>
      intro stored
      cases stored with
      | false => exact failed
      | true =>
        constructor
        · intro grants
          cases is_admin with
          | true => exact right rfl
          | false => simp at grants
        · intro stored
          cases stored with
          | false => exact failed
          | true => exact sound _

theorem signed_sound {claims : UserAuthClaim} {next : String → Op}
    (sound : ∀ token, Sound jwt request heard (next token)) :
    Sound jwt request heard (signed jwt claims next) := by
  unfold signed
  split
  · trivial
  · exact sound _

theorem joined_sound {resp : Except String (String × String)} {next : String → String → Op}
    (sound : ∀ call_id sdp, Sound jwt request heard (next call_id sdp)) :
    Sound jwt request heard (joined resp next) := by
  unfold joined
  split
  · trivial
  · exact sound _ _

theorem let_in_sound {status : Option Bool} {absent : Op} {next : Bool → Op}
    (waits : Sound jwt request heard absent)
    (sound : ∀ is_admin, Sound jwt request heard (next is_admin)) :
    Sound jwt request heard (let_in status absent next) := by
  unfold let_in
  split
  · exact waits
  · exact sound _

theorem waiting_room_sound (room call_id : String) {next : Op}
    (sound : Sound jwt request heard next) :
    Sound jwt request heard (waiting_room room call_id next) := by
  apply sound_call
  intro _
  apply sound_call
  apply sound_ask
  intro members
  exact notify_waiting_sound _ sound _

theorem authenticate_sound (params : Option AuthRequest) :
    Sound jwt request heard (authenticate jwt params) := by
  cases params with
  | none => trivial
  | some params =>
    apply sound_ask
    intro (room_model : Option RoomModel)
    cases room_model with
    | none => trivial
    | some room_model =>
      have grant : ∀ claims, Sound jwt request heard (call "set_member_info"
          (signed jwt claims fun token => .reply (.ok (.auth_token token)))) :=
        fun _ => sound_call (signed_sound fun _ => sound_reply _)
      have wait : ∀ message, Sound jwt request heard
          (waiting_room room_model.uuid params.call_id (fail 403 message)) :=
        fun _ => waiting_room_sound _ _ (sound_reply _)
      have admins : ∀ status (yes : Bool → Op), (∀ is_admin, Sound jwt request heard (yes is_admin)) →
          Sound jwt request heard (let_in status (waiting_room room_model.uuid params.call_id
            (fail 403 "not authenticated, waiting to be accepted")) fun is_admin =>
              if is_admin then yes is_admin else waiting_room room_model.uuid params.call_id
                (fail 403 "not admin, waiting to be accepted")) := by
        intro status yes sound
        apply let_in_sound (wait _)
        intro is_admin
        split
        · exact sound is_admin
        · exact wait _
      dsimp only
      split
      · exact is_authenticated_sound _ _ fun _ _ _ => grant _
      · split
        · split
          · exact is_authenticated_sound _ _ fun _ _ _ => admins _ _ fun _ => grant _
          · trivial
        · split
          · split
            · exact is_authenticated_sound _ _ fun _ _ _ => grant _
            · trivial
          · split
            · exact is_authenticated_sound _ _ fun _ _ _ => admins _ _ fun _ => grant _
            · exact is_authenticated_sound _ _ fun _ _ _ => let_in_sound (wait _) fun _ => grant _

theorem join_room_sound (params : Option JoinRoomRequest) :
    Sound jwt (.join_room params) heard (join_room jwt params) := by
  cases params with
  | none => trivial
  | some params =>
    unfold join_room
    dsimp only
    cases verified : jwt.verify params.auth_token with
    | none => trivial
    | some claims =>
      have join : Sound jwt (.join_room (some params)) heard
          (endpoint_join_room claims.room claims.call_id params.sdp params.audio_muted
            params.video_muted claims.is_admin fun resp => joined resp fun call_id sdp =>
              .reply (.ok (.joined call_id sdp claims.is_admin))) := by
        apply endpoint_join_room_sound
        · intro is_admin
          exact ⟨claims, verified, is_admin, rfl⟩
        · exact fun _ => joined_sound fun _ _ => sound_reply _
      dsimp only
      split
      · apply sound_ask
        intro (user : Option User)
        cases user with
        | none => trivial
        | some user => exact join
      · exact join

theorem create_temp_room_sound (params : Option CreateTempRoom) :
    Sound jwt (.create_temp_room params) heard (create_temp_room params) := by
  cases params with
  | none => trivial
  | some params =>
    apply login_sound
    · trivial
    · intro user more grown loggedIn
      apply sound_ask
      intro (uuid : String)
      apply endpoint_join_room_sound
      · intro _
        exact ⟨user, loggedIn⟩
      · intro resp
        apply joined_sound
        intro _ sdp
        apply sound_ask
        intro (context : Option (Option User))
        cases context with
        | none => trivial
        | some _ =>
          apply sound_ask
          intro _
          apply sound_call
          exact invite_extens_sound _ _ (fun _ => sound_reply _) _ _

theorem convert_to_room_sound (params : Option ConvertToRoom) :
    Sound jwt (.convert_to_room params) heard (convert_to_room params) := by
  cases params with
  | none => trivial
  | some params =>
    intro (converted : Except String (User × String × String))
    cases converted with
    | error error => trivial
    | ok call =>
      obtain ⟨user, self, other⟩ := call
      apply sound_ask
      intro (uuid : String)
      apply sound_call
      apply sound_call
      apply sound_ask
      intro _
      apply sound_call
      apply invite_extens_sound
      intro invited _
      constructor
      · intro _
        exact ⟨user, self, other, List.mem_cons_self, trivial⟩
      · intro _
        trivial

theorem watch_room_sound (auth_token : Option String) :
    Sound jwt request heard (watch_room jwt auth_token) := by
  cases auth_token with
  | none => trivial
  | some auth_token =>
    unfold watch_room
    dsimp only
    split
    · trivial
    · intro _
      constructor
      · intro grants
        cases grants
      · intro _
        trivial

theorem register_room_api_sound (params : Option Credentials) :
    Sound jwt (.register_room_api params) heard (register_room_api params) := by
  cases params with
  | none => trivial
  | some credentials =>
    apply login_sound
    · trivial
    · intro user more _ loggedIn
      exact ⟨⟨credentials, user, rfl, loggedIn, rfl⟩, sound_call (sound_reply _)⟩

theorem invite_exten_to_room_sound (extens : Option (List String)) :
    Sound jwt request heard (invite_exten_to_room extens) := by
  apply as_admin_sound
  intro room channel
  cases extens with
  | none => trivial
  | some extens =>
    apply sound_ask
    intro (context : Option (Option User))
    rcases context with _ | _ | user
    · trivial
    · trivial
    · apply sound_ask
      intro _
      apply sound_call
      exact invite_extens_sound _ _ (fun _ => sound_reply _) _ _

theorem still_waiting_sound : Sound jwt request heard still_waiting := by
  intro call_id
  cases call_id with
  | none => trivial
  | some call_id =>
    intro waiting_room
    cases waiting_room with
    | none => trivial
    | some room =>
      apply sound_ask
      intro (info : Option MemberInfo)
      cases info with
      | none => trivial
      | some info =>
        apply sound_ask
        intro members
        exact notify_waiting_sound _ (sound_reply _) _

theorem leave_room_sound : Sound jwt request heard leave_room := by
  intro call_id
  cases call_id with
  | none => trivial
  | some call_id =>
    intro room
    dsimp only
    split
    · intro waiting_room
      cases waiting_room with
      | none => trivial
      | some room =>
        apply sound_call
        apply sound_ask
        intro members
        exact tell_members_sound _ _ (sound_reply _) _
    · exact sound_call (sound_reply _)

theorem send_reaction_sound (reaction : Option String) :
    Sound jwt request heard (send_reaction reaction) := by
  cases reaction with
  | none => trivial
  | some reaction =>
    intro found
    cases found with
    | none => trivial
    | some place =>
      apply sound_ask
      intro members
      exact tell_members_sound _ _ (sound_reply _) _

theorem handle_notification_sound (method : Notification) :
    Sound jwt request heard (handle_notification method) := by
  cases method with
  | still_waiting => exact still_waiting_sound
  | leave_room => exact leave_room_sound
  | send_reaction reaction => exact send_reaction_sound reaction
  | _ => exact own_flag_sound _ _ _

/-- Rights are written by those who join or make a room, and by those who convert a call. -/
theorem handle_request_sound (request : Request) :
    Sound jwt request heard (handle_request jwt request) := by
  cases request with
  | register_room_api params => exact register_room_api_sound params
  | create_temp_room params => exact create_temp_room_sound params
  | watch_room auth_token => exact watch_room_sound auth_token
  | convert_to_room params => exact convert_to_room_sound params
  | invite_exten extens => exact invite_exten_to_room_sound extens
  | authenticate params => exact authenticate_sound params
  | get_room_members =>
    intro found
    cases found with
    | none => trivial
    | some place => exact sound_ask fun _ => sound_reply _
  | get_waiting_room_members =>
    apply as_admin_sound
    intro room _
    exact sound_ask fun _ => waiting_names_sound _ _ _
  | allow_member params =>
    unfold handle_request allow_member
    apply authorize_member_sound
    intro _ claims
    apply signed_sound
    intro token
    exact sound_call (sound_call (sound_reply _))
  | reject_member params =>
    exact authorize_member_sound (fun _ _ => sound_call (sound_call (sound_reply _))) params
  | remove_member member =>
    cases member with
    | none => trivial
    | some member => exact as_admin_sound fun _ _ => sound_call (sound_reply _)
  | join_room params => exact join_room_sound params
  | subscribe_room members =>
    cases members with
    | none => trivial
    | some members =>
      intro found
      cases found with
      | none => trivial
      | some place => exact sound_call_or (sound_reply _) (sound_reply _)
  | mute_member_audio member => exact member_muted_sound _ _ _ _ _ _ _ member
  | unmute_member_audio member => exact member_muted_sound _ _ _ _ _ _ _ member
  | mute_member_video member => exact member_muted_sound _ _ _ _ _ _ _ member
  | unmute_member_video member => exact member_muted_sound _ _ _ _ _ _ _ member
  | unknown => trivial
  | notification method => exact handle_notification_sound method

end

/-- What is left ends in an error unless a look-up finds the rights of an admin. -/
def Gated : Op → Prop
  | .reply (.error _) => True
  | .get_room_from_addr next =>
    Gated (next none) ∧ ∀ room call_id, Gated (next (some (room, call_id, false)))
  | _ => False

theorem as_admin_gated (code : Int) (message : String) (next : String → String → Op) :
    Gated (as_admin code message next) :=
  ⟨trivial, fun _ _ => trivial⟩

theorem admin_only_gated (jwt : Jwt) {request : Request} (admin_only : request.admin_only = true) :
    Gated (handle_request jwt request) := by
  cases request with
  | remove_member member =>
    cases member with
    | none => trivial
    | some member => exact as_admin_gated _ _ _
  | invite_exten extens => exact as_admin_gated _ _ _
  | get_waiting_room_members => exact as_admin_gated _ _ _
  | mute_member_audio member => exact as_admin_gated _ _ _
  | unmute_member_audio member => exact as_admin_gated _ _ _
  | mute_member_video member => exact as_admin_gated _ _ _
  | unmute_member_video member => exact as_admin_gated _ _ _
  | _ => cases admin_only

end RoomRights
