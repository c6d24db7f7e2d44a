import Nebula.Proxy.Auth

/- Whose location a REGISTER changes. Who is admitted is decided by the branches of
   get_endpoint, and the record is keyed by the Authorization header; the two meet
   in the digest and, if they agree, over the trusted proxies. -/
namespace Register
open Sip Usrloc Auth

inductive Routed where
  | elsewhere
  | stopped
  | challenged
  | unsaved
  | saved (data : UsrlocData)
  deriving DecidableEq

def register (dir : Directory) (store : Store) (msg : Message) : Routed × Store :=
  if msg.method.getD .INVITE ≠ .REGISTER then (.unsaved, store)
  else if checkUsrloc dir.host store msg then
    match save dir.host msg store with
    | some (data, saved) => (.saved data, saved)
    | none => (.stopped, store)
  else (.unsaved, store)

/-- A request with both tags belongs to a dialog. -/
def inDialog (msg : Message) : Bool := msg.fromAddr.tag.isSome && msg.toAddr.tag.isSome

/- What a request does to the locations; requests of other kinds go elsewhere. -/
def route (dir : Directory) (store : Store) (msg : Message) : Routed × Store :=
  if msg.isRequest then
    match msg.method with
    | none => (.stopped, store)
    | some .CANCEL => (.elsewhere, store)
    | some .OPTIONS => (.elsewhere, store)
    | some method =>
      if inDialog msg then (.elsewhere, store)
      else if msg.globalDnd = some "yes" then (.stopped, store)
      else if msg.globalForward.isSome then (.stopped, store)
      else
        match getEndpoint dir msg with
        | none => (.challenged, store)
        | some _ =>
          match method with
          | .REGISTER => register dir store msg
          | _ => (.elsewhere, store)
  else (.elsewhere, store)

/-- The request carries a digest response that the password of the user gives. -/
def ByDigest (dir : Directory) (msg : Message) (name : String) : Prop :=
  ∃ authorization user, msg.authorization = some authorization ∧
    dir.userByLowerName name = some user ∧
    expectedResponse dir msg authorization user = authorization.response

/-- The request came over a trusted proxy that vouches for the user. -/
def ByProxy (dir : Directory) (msg : Message) (name : String) : Prop :=
  ∃ remote, msg.remoteUri = some remote ∧
    ((remote.host ∈ trustedProxies ∧
        ∃ user, msg.authUser = some user ∧ dir.host.toLowercase user = name) ∨
      remote.host ∈ mobileProxies ∧ ∃ device token user, msg.device = some device ∧
        msg.deviceToken = some token ∧ dir.userByDeviceToken device token = some user ∧
        dir.host.toLowercase user.name = name)

/-- The request is admitted for its address or for what it calls, whoever sent it. -/
def ByTable (dir : Directory) (msg : Message) : Prop :=
  ∃ remote endpoint, msg.remoteUri = some remote ∧ teams dir remote.host msg = none ∧
    deviceToken dir remote.host msg = none ∧ trustedProxy dir remote.host msg = none ∧
    (knownProvider dir remote.host msg <|> knownTrunk dir remote.host msg <|>
      withoutAuth dir remote.host msg) = some (some endpoint)

/-- A location that the request changes belongs to who authenticated, and nothing
    that is admitted without authentication changes one. -/
def Belongs (dir : Directory) (store : Store) (msg : Message) : Prop :=
  ∀ data, (route dir store msg).1 = .saved data →
    (ByDigest dir msg data.user ∨ ByProxy dir msg data.user) ∧ ¬ ByTable dir msg

def withResponse (response : String) (msg : Message) : Message :=
  { msg with
    authorization := msg.authorization.map fun authorization =>
      { authorization with response := response } }

/-- The request gets as far as the question who sent it. -/
def Asked (msg : Message) : Prop :=
  msg.isRequest = true ∧ msg.method = some .REGISTER ∧ inDialog msg = false ∧
    msg.globalDnd ≠ some "yes" ∧ msg.globalForward = none

/- Who admits the request, if anybody, answers for the user in its header: a branch
   before the digest does so by being a proxy that vouches for the user, and the
   digest does so unless it looked up a user with another password. -/
def Vouched (dir : Directory) (msg : Message) (authorization : Authorization) : Prop :=
  ∀ remote, msg.remoteUri = some remote → isInternal dir remote.host = false →
    match beforeDigest dir remote.host msg with
    | some none => True
    | some (some _) => ByProxy dir msg (owner dir.host authorization)
    | none => ∀ user, claimedUser dir authorization = some user →
        (authenticatedEndpoint dir msg user).isSome →
          ByProxy dir msg (owner dir.host authorization) ∨
            ∃ own, dir.userByLowerName (owner dir.host authorization) = some own ∧
              expectedResponse dir msg authorization own =
                expectedResponse dir msg authorization user

theorem register_saved_iff (dir : Directory) (store : Store) (msg : Message) (data : UsrlocData)
    (isRegister : msg.method = some .REGISTER) :
    (register dir store msg).1 = .saved data ↔ checkUsrloc dir.host store msg = true ∧
      ∃ authorization, msg.authorization = some authorization ∧
        data = usrlocData dir.host msg authorization := by
  unfold register
  by_cases checked : checkUsrloc dir.host store msg = true
  · cases present : msg.authorization with
    | none => simp [isRegister, checked, save, present]
    | some authorization =>
      simp [isRegister, checked, save, present, eq_comm]
  · simp [isRegister, checked]

theorem route_saved_iff (dir : Directory) (store : Store) (msg : Message) (data : UsrlocData) :
    (route dir store msg).1 = .saved data ↔
      Asked msg ∧ (getEndpoint dir msg).isSome ∧ checkUsrloc dir.host store msg = true ∧
        ∃ authorization, msg.authorization = some authorization ∧
          data = usrlocData dir.host msg authorization := by
  constructor
  · intro saved
    unfold route at saved
    split at saved
    · rename_i isRequest
      split at saved
      · cases saved
      · cases saved
      · cases saved
      · rename_i method _ _ isMethod
        split at saved
        · cases saved
        · rename_i outside
          split at saved
          · cases saved
          · rename_i noDnd
            split at saved
            · cases saved
            · rename_i noForward
              split at saved
              · cases saved
              · rename_i endpoint admitted
                cases method with
                | REGISTER =>
                  have known := (register_saved_iff dir store msg data isMethod).1 saved
                  refine ⟨⟨isRequest, isMethod, by simpa using outside, noDnd, ?_⟩, ?_, known⟩
                  · simpa using noForward
                  · rw [admitted]
                    rfl
                | _ => cases saved
    · cases saved
  · intro ⟨⟨isRequest, isMethod, outside, noDnd, noForward⟩, admitted, known⟩
    obtain ⟨endpoint, isEndpoint⟩ := Option.isSome_iff_exists.1 admitted
    have saved := (register_saved_iff dir store msg data isMethod).2 known
    simpa [route, isRequest, isMethod, outside, noDnd, noForward, isEndpoint] using saved

theorem register_frame (dir : Directory) (store : Store) (msg : Message) :
    (register dir store msg).2 = store ∧ (∀ data, (register dir store msg).1 ≠ .saved data) ∨
      ∃ data, (register dir store msg).1 = .saved data ∧
        save dir.host msg store = some (data, (register dir store msg).2) := by
  unfold register
  split
  · exact Or.inl ⟨rfl, fun data => by simp⟩
  · split
    · split
      · rename_i data after ran
        exact Or.inr ⟨data, rfl, ran⟩
      · exact Or.inl ⟨rfl, fun data => by simp⟩
    · exact Or.inl ⟨rfl, fun data => by simp⟩

/-- A request leaves every location alone, or saves one and leaves those of all
    other keys alone. -/
theorem route_frame (dir : Directory) (store : Store) (msg : Message) :
    (route dir store msg).2 = store ∧ (∀ data, (route dir store msg).1 ≠ .saved data) ∨
      ∃ data, (route dir store msg).1 = .saved data ∧
        (∀ key, key ≠ contactKey data.user data.locationId →
          (route dir store msg).2.contacts key = store.contacts key) ∧
        ∀ key, key ≠ locationKey data.user →
          (route dir store msg).2.locations key = store.locations key := by
  have unsaved : ∀ routed : Routed, (∀ data, routed ≠ .saved data) →
      (routed, store).2 = store ∧ ∀ data, (routed, store).1 ≠ .saved data :=
    fun routed other => ⟨rfl, other⟩
  unfold route
  split
  · split
    · exact Or.inl (unsaved _ (by simp))
    · exact Or.inl (unsaved _ (by simp))
    · exact Or.inl (unsaved _ (by simp))
    · split
      · exact Or.inl (unsaved _ (by simp))
      · split
        · exact Or.inl (unsaved _ (by simp))
        · split
          · exact Or.inl (unsaved _ (by simp))
          · split
            · exact Or.inl (unsaved _ (by simp))
            · split
              · rcases register_frame dir store msg with same | ⟨data, saved, ran⟩
                · exact Or.inl same
                · exact Or.inr ⟨data, saved, save_frame ran⟩
              · exact Or.inl (unsaved _ (by simp))
  · exact Or.inl (unsaved _ (by simp))

theorem beforeDigest_withResponse (dir : Directory) (host response : String) (msg : Message) :
    beforeDigest dir host (withResponse response msg) = beforeDigest dir host msg := rfl

theorem checkUsrloc_withResponse (host : Host) (store : Store) (response : String)
    (msg : Message) : checkUsrloc host store (withResponse response msg) =
      checkUsrloc host store msg := by
  unfold checkUsrloc withResponse
  cases msg.authorization with
  | none => rfl
  | some authorization => rfl

/-- For a REGISTER the digest admits exactly the response of the user it looks up. -/
theorem byDigest_isSome_iff {dir : Directory} {msg : Message} {authorization : Authorization}
    (isRegister : msg.method = some .REGISTER) (present : msg.authorization = some authorization) :
    (byDigest dir msg).isSome ↔ ∃ user, claimedUser dir authorization = some user ∧
      expectedResponse dir msg authorization user = authorization.response ∧
        (authenticatedEndpoint dir msg user).isSome := by
  unfold byDigest
  cases found : claimedUser dir authorization with
  | none => simp [isRegister, present, found]
  | some user =>
    by_cases right : expectedResponse dir msg authorization user = authorization.response
    · simp [isRegister, present, found, right]
    · simp [isRegister, present, found, right]

theorem getEndpoint_isSome_iff (dir : Directory) (msg : Message) :
    (getEndpoint dir msg).isSome ↔ ∃ remote, msg.remoteUri = some remote ∧
      isInternal dir remote.host = false ∧
        ((∃ endpoint, beforeDigest dir remote.host msg = some (some endpoint)) ∨
          beforeDigest dir remote.host msg = none ∧ (byDigest dir msg).isSome) := by
  unfold getEndpoint
  cases received : msg.remoteUri with
  | none => simp
  | some remote =>
    by_cases internal : isInternal dir remote.host = true
    · simp [internal]
    · cases admitted : beforeDigest dir remote.host msg with
      | none => simp [internal, admitted]
      | some verdict => cases verdict <;> simp [internal, admitted]

theorem byDigest_withResponse_iff {dir : Directory} {msg : Message}
    {authorization : Authorization} (present : msg.authorization = some authorization)
    (response name : String) : ByDigest dir (withResponse response msg) name ↔
      ∃ own, dir.userByLowerName name = some own ∧
        expectedResponse dir msg authorization own = response := by
  constructor
  · intro ⟨header, own, carried, found, right⟩
    simp only [withResponse, present, Option.map_some, Option.some.injEq] at carried
    subst carried
    exact ⟨own, found, right⟩
  · intro ⟨own, found, right⟩
    refine ⟨{ authorization with response := response }, own, ?_, found, right⟩
    simp [withResponse, present]

/-- An admitted request with a passing check saves a location of the header's user. -/
theorem saved_withResponse {dir : Directory} {store : Store} {msg : Message}
    {authorization : Authorization} {response : String} (asked : Asked msg)
    (checked : checkUsrloc dir.host store msg = true)
    (present : msg.authorization = some authorization)
    (admitted : (getEndpoint dir (withResponse response msg)).isSome) :
    ∃ data, (route dir store (withResponse response msg)).1 = .saved data ∧
      data.user = owner dir.host authorization := by
  refine ⟨usrlocData dir.host (withResponse response msg)
    { authorization with response := response }, ?_, rfl⟩
  apply (route_saved_iff _ _ _ _).2
  refine ⟨asked, admitted, ?_, _, ?_, rfl⟩
  · rw [checkUsrloc_withResponse]
    exact checked
  · simp [withResponse, present]

/-- Where a proxy vouches, its own branch answers before any table is asked. -/
theorem byProxy_not_byTable {dir : Directory} {msg : Message} {name : String}
    (proxy : ByProxy dir msg name) : ¬ ByTable dir msg := by
  intro ⟨remote, endpoint, received, _, noToken, noProxy, _⟩
  obtain ⟨other, received', vouches⟩ := proxy
  rw [received] at received'
  cases received'
  rcases vouches with ⟨trusted, user, named, _⟩ | ⟨mobile, device, token, user, hasDevice, hasToken, _⟩
  · simp [trustedProxy, trusted, named] at noProxy
  · simp [deviceToken, mobile, hasDevice, hasToken] at noToken

theorem not_byTable_of_next {dir : Directory} {msg : Message} {remote : Uri}
    (received : msg.remoteUri = some remote) (next : beforeDigest dir remote.host msg = none) :
    ¬ ByTable dir msg := by
  intro ⟨other, endpoint, received', noTeams, noToken, noProxy, table⟩
  rw [received] at received'
  cases received'
  have tables : beforeDigest dir remote.host msg = (knownProvider dir remote.host msg <|>
      knownTrunk dir remote.host msg <|> withoutAuth dir remote.host msg) := by
    unfold beforeDigest
    rw [noTeams, noToken, noProxy]
    rfl
  rw [tables, table] at next
  cases next

theorem vouched_of_belongs {dir : Directory} {store : Store} {msg : Message}
    {authorization : Authorization}
    (belongs : ∀ response, Belongs dir store (withResponse response msg)) (asked : Asked msg)
    (checked : checkUsrloc dir.host store msg = true)
    (present : msg.authorization = some authorization) : Vouched dir msg authorization := by
  intro remote received outside
  cases admitted : beforeDigest dir remote.host msg with
  | none =>
    intro user found authenticates
    have isHeader : (withResponse (expectedResponse dir msg authorization user) msg).authorization =
        some { authorization with
          response := expectedResponse dir msg authorization user } := by
      simp [withResponse, present]
    have isRegister :
        (withResponse (expectedResponse dir msg authorization user) msg).method =
          some .REGISTER := asked.2.1
    have answered : (getEndpoint dir
        (withResponse (expectedResponse dir msg authorization user) msg)).isSome :=
      (getEndpoint_isSome_iff _ _).2 ⟨remote, received, outside, Or.inr ⟨admitted,
        (byDigest_isSome_iff isRegister isHeader).2 ⟨user, found, rfl, authenticates⟩⟩⟩
    obtain ⟨data, saved, named⟩ := saved_withResponse asked checked present answered
    rw [← named]
    rcases (belongs _ data saved).1 with digest | proxy
    · exact Or.inr ((byDigest_withResponse_iff present _ _).1 digest)
    · exact Or.inl proxy
  | some verdict =>
    cases verdict with
    | none => trivial
    | some endpoint =>
      -- a response that is certainly not the one of the user in the header
      obtain ⟨wrong, isWrong⟩ : ∃ wrong, ∀ own,
          dir.userByLowerName (owner dir.host authorization) = some own →
            expectedResponse dir msg authorization own ≠ wrong := by
        cases found : dir.userByLowerName (owner dir.host authorization) with
        | none => exact ⟨"", fun own same => by cases same⟩
        | some user =>
          refine ⟨expectedResponse dir msg authorization user ++ "0", ?_⟩
          intro own same equal
          cases same
          have lengths := congrArg String.length equal
          have one : "0".length = 1 := rfl
          rw [String.length_append] at lengths
          omega
      have answered : (getEndpoint dir (withResponse wrong msg)).isSome :=
        (getEndpoint_isSome_iff _ _).2 ⟨remote, received, outside, Or.inl ⟨endpoint, admitted⟩⟩
      obtain ⟨data, saved, named⟩ := saved_withResponse asked checked present answered
      rcases (belongs _ data saved).1 with digest | proxy
      · obtain ⟨own, found, right⟩ := (byDigest_withResponse_iff present _ _).1 digest
        rw [named] at found
        exact absurd right (isWrong own found)
      · rw [named] at proxy
        exact proxy

theorem belongs_of_vouched {dir : Directory} {store : Store} {msg : Message} {response : String}
    (vouched : Asked msg → checkUsrloc dir.host store msg = true → ∀ authorization,
      msg.authorization = some authorization → Vouched dir msg authorization) :
    Belongs dir store (withResponse response msg) := by
  intro data saved
  obtain ⟨asked, admitted, checked, header, carried, rfl⟩ := (route_saved_iff _ _ _ _).1 saved
  rw [checkUsrloc_withResponse] at checked
  obtain ⟨authorization, present, same⟩ : ∃ authorization, msg.authorization = some authorization ∧
      { authorization with response := response } = header := by
    simpa [withResponse] using carried
  obtain ⟨remote, received, outside, verdict⟩ := (getEndpoint_isSome_iff _ _).1 admitted
  have vouches := vouched asked checked authorization present remote received outside
  rw [beforeDigest_withResponse] at verdict
  subst same
  rcases verdict with ⟨endpoint, branch⟩ | ⟨branch, digest⟩
  · rw [branch] at vouches
    exact ⟨Or.inr vouches, byProxy_not_byTable vouches⟩
  · rw [branch] at vouches
    obtain ⟨user, found, right, authenticates⟩ := (byDigest_isSome_iff asked.2.1 carried).1 digest
    refine ⟨?_, not_byTable_of_next received branch⟩
    rcases vouches user found authenticates with proxy | ⟨own, isOwn, equal⟩
    · exact Or.inr proxy
    · left
      apply (byDigest_withResponse_iff present _ _).2
      exact ⟨own, isOwn, equal.trans right⟩

/- For a request and any response it may carry: the location it changes belongs to
   who authenticated exactly if the branch that admits it vouches for that user. -/
theorem belongs_iff_vouched (dir : Directory) (store : Store) (msg : Message) :
    (∀ response, Belongs dir store (withResponse response msg)) ↔
      (Asked msg → checkUsrloc dir.host store msg = true → ∀ authorization,
        msg.authorization = some authorization → Vouched dir msg authorization) := by
  constructor
  · intro belongs asked checked authorization present
    exact vouched_of_belongs belongs asked checked present
  · intro vouched response
    exact belongs_of_vouched vouched

def sampleHost : Host where
  sha256 := fun text =>
    if text = "c1" then "d0f631ca1ddba8db3bcfcb9e057cdc98d0379f1bee00e75a545147a27dadd982" else ""
  toLowercase := String.toLower
  now := "2024-05-01T12:00:00+00:00"
  secondsFromNow := fun _ => "2024-05-01T13:00:00+00:00"
  proxyHost := "10.0.0.1"

/-- The digests that a response of the customer below is made of. -/
def sampleMd5 (text : String) : String :=
  if text = "victim:talk.yay.com:secret" then "6dc35733340eb86d8be25ed8e3024dc0"
  else if text = "REGISTER:sip:talk.yay.com" then "a024be6817a1ffaca2f3caf344f8ced2"
  else "2c7d64384ccf65bdcffaca2be66cf92f"

/-- One customer with a password, and one number that is open to anybody. -/
def sampleDirectory : Directory where
  host := sampleHost
  md5 := sampleMd5
  internalIps := none
  teamsAddresses := none
  userByLowerName := fun name =>
    if name = "victim" then some ⟨"u1", "Victim", "secret", false, true⟩ else none
  userByDeviceToken := fun _ _ => none
  userByMsteam := fun _ _ => none
  msteamUserInAccount := fun _ => none
  trunkByUser := fun _ => none
  trunkByIp := fun _ _ => none
  trunk := fun _ _ => none
  provider := fun _ => none
  number := fun _ user => if user = "442080908160" then some ⟨false⟩ else none

def strangerHeader : Authorization where
  username := "victim"
  realm := "talk.yay.com"
  nonce := "f00d"
  uri := "sip:talk.yay.com"
  response := "00000000000000000000000000000000"

def strangerRegister : Message where
  method := some .REGISTER
  requestUri := some { user := some "442080908160", host := "talk.yay.com" }
  contact := some { uri := { user := some "mallory", host := "203.0.113.7" } }
  callid := "c1"
  expires := some 3600
  authorization := some strangerHeader
  remoteUri := some { host := "203.0.113.7", port := some 5060 }

/- A REGISTER for a number that needs no authentication puts the sender's address
   among the locations of the user it names. -/
theorem stranger_moves_location :
    (route sampleDirectory Store.empty strangerRegister).1 =
        .saved (usrlocData sampleHost strangerRegister strangerHeader) ∧
      (usrlocData sampleHost strangerRegister strangerHeader).user = "victim" ∧
      ¬ ByDigest sampleDirectory strangerRegister "victim" ∧
      ¬ ∀ dir store msg, Belongs dir store msg := by
  have saved : (route sampleDirectory Store.empty strangerRegister).1 =
      .saved (usrlocData sampleHost strangerRegister strangerHeader) := by
    decide +kernel
  refine ⟨saved, by decide +kernel, ?_, ?_⟩
  · intro ⟨header, user, carried, found, right⟩
    cases carried
    cases found
    revert right
    decide +kernel
  intro always
  apply (always sampleDirectory Store.empty strangerRegister _ saved).2
  exact ⟨{ host := "203.0.113.7", port := some 5060 }, .Provider ⟨"anonymous", some "203.0.113.7"⟩,
    rfl, by decide +kernel, by decide +kernel, by decide +kernel, by decide +kernel⟩

end Register
