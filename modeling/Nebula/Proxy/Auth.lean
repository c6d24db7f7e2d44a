import Nebula.Db.Usrloc

/- Who a request is taken to come from. The database, the name lookup of Teams and
   the hash are parameters; of an endpoint only what registration could use is
   kept. -/
namespace Auth
open Sip Usrloc

structure User where
  uuid : String
  name : String
  password : String
  trunk : Bool
  requireAuth : Bool
  deriving DecidableEq

structure TrunkAuth where
  tenantId : String
  trunkUuid : String
  deriving DecidableEq

structure Trunk where
  uuid : String
  deriving DecidableEq

structure Provider where
  name : String
  host : Option String
  deriving DecidableEq

structure Number where
  requireAuth : Bool
  deriving DecidableEq

inductive UserAgentType where
  | MsTeams
  | MobileApp
  | DesktopApp
  | Other
  deriving DecidableEq, Repr

inductive Endpoint where
  | User (user : User) (userAgent : Option String) (userAgentType : Option UserAgentType)
  | Trunk (trunk : Trunk)
  | Provider (provider : Provider)
  deriving DecidableEq

/-- What get_endpoint asks for. Users are found by their name in lower case. -/
structure Directory where
  host : Host
  md5 : String → String
  internalIps : Option (List String)
  teamsAddresses : Option (List String)
  userByLowerName : String → Option User
  userByDeviceToken : String → String → Option User
  userByMsteam : String → String → Option User
  msteamUserInAccount : String → Option User
  trunkByUser : String → Option TrunkAuth
  trunkByIp : String → String → Option TrunkAuth
  trunk : String → String → Option Trunk
  provider : String → Option Provider
  number : String → String → Option Number

def getUserByName (dir : Directory) (name : String) : Option User :=
  dir.userByLowerName (dir.host.toLowercase name)

def mobileProxies : List String := ["104.199.110.107", "35.187.44.195"]

def trustedProxies : List String :=
  ["104.199.9.146", "23.251.134.254", "104.155.107.76", "130.211.62.248", "35.190.222.244"]

def namesTeams (msg : Message) : Bool :=
  msg.fromAddr.uri.host.endsWith "pstnhub.microsoft.com" ||
    (msg.contact.map fun contact => contact.uri.host.endsWith "pstnhub.microsoft.com").getD false

def teamsUser (dir : Directory) (msg : Message) : Option Endpoint := do
  let domain := (← msg.requestUri).host
  if msg.replaces.isSome then
    return .User (← dir.msteamUserInAccount domain) none (some .MsTeams)
  let msteam ← msg.fromAddr.uri.user
  match dir.userByMsteam msteam domain with
  | some user => return .User user none (some .MsTeams)
  | none => return .User (← dir.msteamUserInAccount domain) none (some .MsTeams)

/- The branches of get_endpoint. none means that the next one is asked, some none
   that the request is not admitted at all. -/

def teams (dir : Directory) (host : String) (msg : Message) : Option (Option Endpoint) :=
  if namesTeams msg then
    match dir.teamsAddresses with
    | none => some none
    | some addresses => if addresses.contains host then some (teamsUser dir msg) else none
  else none

def deviceToken (dir : Directory) (host : String) (msg : Message) : Option (Option Endpoint) :=
  if mobileProxies.contains host then
    match msg.device, msg.deviceToken with
    | some device, some token =>
      some ((dir.userByDeviceToken device token).map fun user => .User user none (some .MobileApp))
    | _, _ => none
  else none

/-- The trunk of a user that stands for one. -/
def trunkOfUser (dir : Directory) (user : User) : Option Endpoint := do
  let trunkAuth ← dir.trunkByUser user.uuid
  return .Trunk (← dir.trunk trunkAuth.tenantId trunkAuth.trunkUuid)

/-- The number lookup that a provider call needs before it is admitted. -/
def providerEndpoint (msg : Message) (provider : Provider) : Option Endpoint := do
  let _ ← (← msg.requestUri).user
  return .Provider provider

def trustedProxy (dir : Directory) (host : String) (msg : Message) : Option (Option Endpoint) :=
  if trustedProxies.contains host then
    match msg.authUser, msg.authProvider with
    | some name, _ =>
      some (match getUserByName dir name with
        | none => none
        | some user => if user.trunk then trunkOfUser dir user else some (.User user none none))
    | none, some provider => some (providerEndpoint msg ⟨provider, some provider⟩)
    | none, none => none
  else none

def knownProvider (dir : Directory) (host : String) (msg : Message) : Option (Option Endpoint) :=
  (dir.provider host).map (providerEndpoint msg)

def knownTrunk (dir : Directory) (host : String) (msg : Message) : Option (Option Endpoint) :=
  match dir.trunkByIp host (msg.trunkInfo.getD "") with
  | none => none
  | some trunkAuth =>
    (dir.trunk trunkAuth.tenantId trunkAuth.trunkUuid).map fun trunk => some (.Trunk trunk)

def openNumber (dir : Directory) (host user : String) : Option (Option Endpoint) :=
  match dir.number "admin" user with
  | some number =>
    if number.requireAuth then none else some (some (.Provider ⟨"anonymous", some host⟩))
  | none => none

def openUser (dir : Directory) (host user : String) : Option (Option Endpoint) :=
  match getUserByName dir user with
  | some user =>
    if user.requireAuth then none else some (some (.Provider ⟨"anonymous", some host⟩))
  | none => none

def withoutAuth (dir : Directory) (host : String) (msg : Message) : Option (Option Endpoint) :=
  match msg.requestUri.bind Uri.user with
  | some user => openNumber dir host user <|> openUser dir host user
  | none => none

/-- All that is asked before the digest. -/
def beforeDigest (dir : Directory) (host : String) (msg : Message) : Option (Option Endpoint) :=
  teams dir host msg <|> deviceToken dir host msg <|> trustedProxy dir host msg <|>
    knownProvider dir host msg <|> knownTrunk dir host msg <|> withoutAuth dir host msg

def digest (dir : Directory) (username password realm uri method nonce : String)
    (qop cnonce nc : Option String) : String :=
  let a1 := username ++ ":" ++ realm ++ ":" ++ password
  let a2 := method ++ ":" ++ uri
  match cnonce with
  | some cnonce =>
    dir.md5 (dir.md5 a1 ++ ":" ++ nonce ++ ":" ++ nc.getD "" ++ ":" ++ cnonce ++ ":" ++
      qop.getD "" ++ ":" ++ dir.md5 a2)
  | none => dir.md5 (dir.md5 a1 ++ ":" ++ nonce ++ ":" ++ dir.md5 a2)

/-- The response that a user's password gives for a header. -/
def expectedResponse (dir : Directory) (msg : Message) (authorization : Authorization)
    (user : User) : String :=
  digest dir authorization.username user.password authorization.realm authorization.uri
    (msg.method.getD .INVITE).text authorization.nonce authorization.qop authorization.cnonce
    authorization.nonceCount

def claimedUser (dir : Directory) (authorization : Authorization) : Option User :=
  match realmPrefix authorization.realm with
  | some domain => getUserByName dir (authorization.username ++ domain)
  | none => getUserByName dir authorization.username

def userAgentType (msg : Message) : Option UserAgentType :=
  msg.remoteUri.map fun uri =>
    if uri.transport = .Ws ∨ uri.transport = .Wss then .DesktopApp else .Other

def authenticatedEndpoint (dir : Directory) (msg : Message) (user : User) : Option Endpoint :=
  if user.trunk then trunkOfUser dir user
  else some (.User user msg.userAgent (userAgentType msg))

def byDigest (dir : Directory) (msg : Message) : Option Endpoint := do
  let authorization ←
    match msg.method.getD .INVITE with
    | .REGISTER => msg.authorization
    | _ => msg.proxyAuthorization
  let user ← claimedUser dir authorization
  if expectedResponse dir msg authorization user = authorization.response then
    authenticatedEndpoint dir msg user
  else none

def isInternal (dir : Directory) (host : String) : Bool :=
  (dir.internalIps.map fun ips => ips.contains host).getD false

def getEndpoint (dir : Directory) (msg : Message) : Option Endpoint :=
  match msg.remoteUri with
  | none => none
  | some remote =>
    if isInternal dir remote.host then none
    else (beforeDigest dir remote.host msg).getD (byDigest dir msg)

end Auth
