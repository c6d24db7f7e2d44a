import Mathlib.Logic.Function.Basic
import Nebula.Sip.Message

/- Locations of registered users. The hash of call ids, lower-casing and the clock
   are parameters; addresses are kept unprinted. -/
namespace Usrloc
open Sip

structure Host where
  sha256 : String → String
  toLowercase : String → String
  now : String
  secondsFromNow : Int → String
  proxyHost : String

structure UsrlocData where
  user : String
  callid : String
  locationId : String
  proxyHost : String
  contact : Option Address
  received : Option Uri
  registeredAt : String
  expiresAt : String
  userAgent : String
  expires : Nat
  deriving DecidableEq

/-- The contact hashes with their time to live, the location lists and the set of
    contacts of this proxy. -/
structure Store where
  contacts : String → Option (UsrlocData × Int)
  locations : String → List String
  allContacts : List String

def Store.empty : Store := ⟨fun _ => none, fun _ => [], []⟩

def locationKey (user : String) : String := "nebula:location:" ++ user

def contactKey (user hashedCallid : String) : String :=
  "nebula:location:" ++ user ++ ":" ++ hashedCallid

/-- The realm of a customer's own domain, without the domain. -/
def stripSuffix (text suffix : String) : Option String :=
  if suffix.toList.isSuffixOf text.toList then
    some (String.ofList (text.toList.take (text.length - suffix.length)))
  else none

def realmPrefix (realm : String) : Option String := stripSuffix realm ".hosted.surevoip.co.uk"

def requestedExpires (msg : Message) : Int :=
  match msg.expires with
  | some expires => expires
  | none =>
    match msg.contact with
    | some contact => contact.expires.getD 0
    | none => 0

/-- The user whose location an authorization header names. -/
def owner (host : Host) (authorization : Authorization) : String :=
  let user := host.toLowercase authorization.username
  match realmPrefix authorization.realm with
  | some domain => user ++ host.toLowercase domain
  | none => user

def storeToRedis (data : UsrlocData) (store : Store) : Store :=
  let contact := contactKey data.user data.locationId
  let location := locationKey data.user
  if data.expires > 0 then
    { store with
      contacts := Function.update store.contacts contact (some (data, data.expires))
      locations := Function.update store.locations location
        ((data.locationId :: (store.locations location).filter (· ≠ data.locationId)).take 10) }
  else
    { store with
      contacts := Function.update store.contacts contact none
      locations := Function.update store.locations location
        ((store.locations location).filter (· ≠ data.locationId)) }

def usrlocData (host : Host) (msg : Message) (authorization : Authorization) : UsrlocData where
  user := owner host authorization
  callid := msg.callid
  locationId := host.sha256 msg.callid
  proxyHost := host.proxyHost
  contact := msg.contact
  received := msg.remoteUri
  registeredAt := host.now
  expiresAt := host.secondsFromNow (requestedExpires msg)
  userAgent := msg.userAgent.getD ""
  expires := (requestedExpires msg % 0x10000000000000000).toNat

def save (host : Host) (msg : Message) (store : Store) : Option (UsrlocData × Store) :=
  match msg.authorization with
  | none => none
  | some authorization =>
    let data := usrlocData host msg authorization
    let stored := storeToRedis data store
    let contact := contactKey data.user data.locationId
    some (data, { stored with
      allContacts :=
        if requestedExpires msg > 0 then stored.allContacts.insert contact
        else stored.allContacts.filter (· ≠ contact) })

/-- The time to live Redis reports: -2 for a key that does not exist. -/
def ttl (store : Store) (key : String) : Int :=
  match store.contacts key with
  | some (_, seconds) => seconds
  | none => -2

def checkUsrloc (host : Host) (store : Store) (msg : Message) : Bool :=
  match msg.authorization with
  | none => false
  | some authorization =>
    let contact := contactKey (host.toLowercase authorization.username) (host.sha256 msg.callid)
    let expires := requestedExpires msg
    if expires = 0 then (store.contacts contact).isSome
    else decide (¬ ttl store contact + 10 > expires)

/-- A save writes under the keys of the user in its header and no others. -/
theorem save_frame {host : Host} {msg : Message} {store saved : Store} {data : UsrlocData}
    (ran : save host msg store = some (data, saved)) :
    (∀ key, key ≠ contactKey data.user data.locationId → saved.contacts key = store.contacts key) ∧
      ∀ key, key ≠ locationKey data.user → saved.locations key = store.locations key := by
  unfold save at ran
  split at ran
  · cases ran
  · cases ran
    constructor
    · intro key other
      unfold storeToRedis
      split <;> exact Function.update_of_ne other _ _
    · intro key other
      unfold storeToRedis
      split <;> exact Function.update_of_ne other _ _

end Usrloc
