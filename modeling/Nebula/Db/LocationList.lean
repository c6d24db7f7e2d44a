import Nebula.Db.Usrloc
import Nebula.Lib.Expiring
import Nebula.Lib.Runs
import Nebula.Sip.MessageRoundTrip

/- The contacts of a user, each with its own expiry, the list of the user's locations, and what a
   lookup makes of both. Times are in milliseconds, expiries in seconds. -/
namespace LocationList
open Expiring
open Usrloc (contactKey locationKey)
open SipText (FormUrlencoded Text)
open Sip (TransportType)

abbrev Hash := String → Option String

structure UsrlocData where
  user : String
  callid : String
  locationId : String
  proxyHost : String
  contact : String
  received : String
  registeredAt : String
  expiresAt : String
  userAgent : String
  expires : ℕ
  deriving DecidableEq

def UsrlocData.pairs (data : UsrlocData) : List (String × String) :=
  [("user", data.user), ("contact", data.contact), ("received", data.received),
    ("registered_at", data.registeredAt), ("expires_at", data.expiresAt),
    ("user_agent", data.userAgent), ("callid", data.callid), ("location_id", data.locationId),
    ("proxy_host", data.proxyHost)]

/-- The last time that Redis can keep. -/
def lastTime : ℕ := 0x7FFFFFFFFFFFFFFF

structure Store where
  contacts : String → Cell Hash
  locations : String → List String

section Commands
variable (now : ℕ)

/-- The fields that are not written stay. -/
def written (pairs : List (String × String)) (hash : Option Hash) : Hash :=
  fun field => (pairs.lookup field).or (hash.elim none fun hash => hash field)

def Store.hmset (key : String) (pairs : List (String × String)) (store : Store) : Store :=
  { store with
    contacts := Function.update store.contacts key (edit now (written pairs) (store.contacts key)) }

/-- A time that Redis cannot keep is an error, which changes nothing. -/
def Store.expire (key : String) (seconds : ℕ) (store : Store) : Store :=
  if now + 1000 * seconds ≤ lastTime then
    { store with
      contacts := Function.update store.contacts key
        (expireAt now (now + 1000 * seconds) (store.contacts key)) }
  else store

def Store.del (key : String) (store : Store) : Store :=
  { store with contacts := Function.update store.contacts key none }

def Store.lrem (key element : String) (store : Store) : Store :=
  { store with
    locations := Function.update store.locations key
      ((store.locations key).filter (· ≠ element)) }

def Store.lpush (key element : String) (store : Store) : Store :=
  { store with locations := Function.update store.locations key (element :: store.locations key) }

/-- The elements up to an index stay. -/
def Store.ltrim (key : String) (last : ℕ) (store : Store) : Store :=
  { store with
    locations := Function.update store.locations key ((store.locations key).take (last + 1)) }

end Commands

def storeToRedis (now : ℕ) (data : UsrlocData) (store : Store) : Store :=
  let contactKey := contactKey data.user data.locationId
  let locationKey := locationKey data.user
  if data.expires > 0 then
    let store := store.hmset now contactKey data.pairs
    let store := store.expire now contactKey data.expires
    let store := store.lrem locationKey data.locationId
    let store := store.lpush locationKey data.locationId
    store.ltrim locationKey 9
  else
    (store.del contactKey).lrem locationKey data.locationId

structure User where
  name : String
  domain : Option String
  tenantId : String
  displayName : Option String
  encryption : Option Bool

/-- The fields that a lookup sets to more than nothing. -/
structure Location where
  reqUri : SipText.Uri
  dstUri : SipText.Uri
  user : String
  fromHost : String
  toHost : String
  proxyHost : String
  displayName : Option String
  intra : Bool
  encryption : Bool
  userAgent : Option String
  dnd : Bool
  dndAllowInternal : Bool
  isRegistration : Option Bool
  tenantId : Option String
  globalDnd : Bool

def getPort (uri : SipText.Uri) : UInt16 :=
  match uri.port with
  | some port => port
  | none =>
    match uri.transport with
    | .Udp => 5060
    | .Tcp => 5060
    | .Tls => 5061
    | .Ws => 80
    | .Wss => 443

abbrev Received := Text × UInt16 × TransportType

def receivedOf (uri : SipText.Uri) : Received := (uri.host, getPort uri, uri.transport)

section Lookup
variable (form : FormUrlencoded)

/-- The text of a received address may be no URI. -/
def readReceived (text : String) : Option SipText.Uri := SipText.Uri.fromStr form text.toList

/-- What is made of a contact's fields, unless one is missing or cannot be read. -/
def readContact (user : User) (contactMap : Hash) : Option Location := do
  let contact ← contactMap "contact"
  let address ← SipText.Address.fromStr form contact.toList
  let received ← contactMap "received"
  let dstUri ← readReceived form received
  let proxyHost ← contactMap "proxy_host"
  some {
    reqUri := address.uri, dstUri, user := user.name
    fromHost := user.domain.getD "talk.yay.com", toHost := user.domain.getD "talk.yay.com"
    proxyHost, displayName := user.displayName, intra := false
    encryption := if dstUri.transport = .Tls then true else user.encryption.getD false
    userAgent := contactMap "user_agent"
    dnd := (contactMap "dnd").any (· = "yes")
    dndAllowInternal := (contactMap "dnd_allow_internal").any (· = "yes")
    isRegistration := some true, tenantId := some user.tenantId, globalDnd := false }

variable (toLowercase : String → String) (user : User)

/-- The location, the addresses that have been seen and what is left of the store. -/
def lookupOne (now : ℕ) (hashedCallid locationKey : String) (seen : List Received)
    (store : Store) : Option Location × List Received × Store :=
  match read now (store.contacts (contactKey (toLowercase user.name) hashedCallid)) with
  | none => (none, seen, store.lrem locationKey hashedCallid)
  | some contactMap =>
    match readContact form user contactMap with
    | none => (none, seen, store)
    | some location =>
      if receivedOf location.dstUri ∈ seen then (none, seen, store)
      else (some location, receivedOf location.dstUri :: seen, store)

/-- A lookup on its way, and the time. -/
structure Progress where
  now : ℕ
  store : Store
  seen : List Received
  locations : List Location

def tooMany (location : Location) (locations : List Location) : Bool :=
  location.dstUri.transport ≠ .Wss && location.dstUri.transport ≠ .Ws && locations.length > 3

/-- One round, after a pause. -/
def Progress.round (progress : Progress) (hashedCallid : String) (pause : ℕ) : Progress :=
  let now := progress.now + pause
  match lookupOne form toLowercase user now hashedCallid (locationKey (toLowercase user.name))
      progress.seen progress.store with
  | (none, seen, store) => { progress with now, seen, store }
  | (some location, seen, store) =>
    if tooMany location progress.locations then { progress with now, seen, store }
    else { now, seen, store, locations := progress.locations ++ [location] }

def Progress.rounds : List String → List ℕ → Progress → Progress
  | [], _, progress => progress
  | hashedCallid :: hashedCallids, pauses, progress =>
    rounds hashedCallids pauses.tail
      (progress.round form toLowercase user hashedCallid (pauses.headD 0))

def lookup (now : ℕ) (pauses : List ℕ) (store : Store) : Progress :=
  Progress.rounds form toLowercase user (store.locations (locationKey (toLowercase user.name)))
    pauses ⟨now, store, [], []⟩

end Lookup

section Runs

/-- What was stored, and when. -/
structure Call where
  time : ℕ
  data : UsrlocData

/-- The calls, the newest first, are no part of the code. -/
structure State where
  now : ℕ
  store : Store
  calls : List Call

def State.start (now : ℕ) : State := ⟨now, ⟨fun _ => none, fun _ => []⟩, []⟩

inductive Event where
  | stored (data : UsrlocData)
  | looked (pauses : List ℕ)
  | passed (millis : ℕ)

variable (form : FormUrlencoded) (toLowercase : String → String) (user : User)

def machine : Runs.Machine State Event := fun state event =>
  match event with
  | .stored data =>
    some { state with
      store := storeToRedis state.now data state.store
      calls := ⟨state.now, data⟩ :: state.calls }
  | .looked pauses =>
    let progress := lookup form toLowercase user state.now pauses state.store
    some { state with now := progress.now, store := progress.store }
  | .passed millis => some { state with now := state.now + millis }

/-- All that is stored is the user's. -/
def OwnData : Runs.Guard State Event := fun _ event =>
  ∀ data, event = .stored data → data.user = toLowercase user.name

/-- Redis can keep each expiry. -/
def OwnAccepted : Runs.Guard State Event := fun state event =>
  ∀ data, event = .stored data →
    data.user = toLowercase user.name ∧ state.now + 1000 * data.expires ≤ lastTime

end Runs

section Claimed

def lastCall (calls : List Call) (locationId : String) : Option Call :=
  calls.find? fun call => call.data.locationId = locationId

/-- What was registered last, unless it was taken back or has run out. -/
def registered (calls : List Call) (time : ℕ) (locationId : String) : Option UsrlocData :=
  (lastCall calls locationId).bind fun call =>
    if 0 < call.data.expires ∧ time < call.time + 1000 * call.data.expires then some call.data
    else none

/-- How many calls were made since the last for a location. -/
def callsSince (calls : List Call) (locationId : String) : ℕ :=
  (calls.map fun call => call.data.locationId).idxOf locationId

/-- The last calls for the locations are registrations, the most recent first. -/
structure Listed (calls : List Call) (locations : List String) : Prop where
  nodup : locations.Nodup
  atMostTen : locations.length ≤ 10
  registrations : ∀ locationId ∈ locations,
    ∃ call ∈ lastCall calls locationId, 0 < call.data.expires
  newestFirst : locations.Pairwise fun locationId other =>
    callsSince calls locationId < callsSince calls other

variable (form : FormUrlencoded) (user : User)

/-- A location that is found is that of a contact which is registered as it is read, and no contact
    for the same address was registered since. -/
structure Found (target : UsrlocData → Option Received) (calls : List Call) (first last : ℕ)
    (location : Location) : Prop where
  registered : ∃ locationId time data, first ≤ time ∧ time ≤ last ∧
    LocationList.registered calls time locationId = some data ∧
    readContact form user (written data.pairs none) = some location ∧
    ∀ other otherData, LocationList.registered calls time other = some otherData →
      target otherData = some (receivedOf location.dstUri) →
      callsSince calls locationId ≤ callsSince calls other

structure Answered (target : UsrlocData → Option Received) (calls : List Call) (first last : ℕ)
    (locations : List Location) : Prop where
  found : ∀ location ∈ locations, Found form user target calls first last location
  onePerAddress : (locations.map fun location => receivedOf location.dstUri).Nodup

def Right (toLowercase : String → String) (target : UsrlocData → Option Received)
    (state : State) : Prop :=
  Listed state.calls (state.store.locations (locationKey (toLowercase user.name))) ∧
    ∀ pauses, let progress := lookup form toLowercase user state.now pauses state.store
      Answered form user target state.calls state.now progress.now progress.locations

/-- The address that a contact was received from. -/
def anyTarget (data : UsrlocData) : Option Received :=
  (readReceived form data.received).map receivedOf

/-- The address of a contact that can be read. -/
def readableTarget (data : UsrlocData) : Option Received :=
  (readContact form user (written data.pairs none)).map fun location =>
    receivedOf location.dstUri

end Claimed

section Calls
variable {calls : List Call} {call : Call} {locationId : String}

theorem lastCall_cons : lastCall (call :: calls) locationId =
    if call.data.locationId = locationId then some call else lastCall calls locationId := by
  unfold lastCall
  rw [List.find?_cons]
  by_cases own : call.data.locationId = locationId
  · simp [own]
  · simp [own]

theorem registered_cons {time : ℕ} : registered (call :: calls) time locationId =
    if call.data.locationId = locationId then
      if 0 < call.data.expires ∧ time < call.time + 1000 * call.data.expires then some call.data
      else none
    else registered calls time locationId := by
  unfold registered
  rw [lastCall_cons]
  by_cases own : call.data.locationId = locationId
  · rw [if_pos own, if_pos own, Option.bind_some]
  · rw [if_neg own, if_neg own]

theorem callsSince_own : callsSince (call :: calls) call.data.locationId = 0 := by
  simp [callsSince]

theorem callsSince_cons (other : locationId ≠ call.data.locationId) :
    callsSince (call :: calls) locationId = callsSince calls locationId + 1 := by
  unfold callsSince
  rw [List.map_cons, List.idxOf_cons_ne _ other.symm]

theorem registered_earlier {earlier later : ℕ} (before : earlier ≤ later) {data : UsrlocData}
    (still : registered calls later locationId = some data) :
    registered calls earlier locationId = some data := by
  unfold registered at still ⊢
  obtain ⟨call, last, inForce⟩ := Option.bind_eq_some_iff.mp still
  rw [last, Option.bind_some]
  split at inForce
  · rename_i valid
    rw [if_pos ⟨valid.1, Nat.lt_of_le_of_lt before valid.2⟩]
    exact inForce
  · cases inForce

end Calls

section Stored
variable {data other : UsrlocData}

theorem lookup_pairs (field : String) :
    (data.pairs.lookup field).isSome = (other.pairs.lookup field).isSome := by
  simp only [UsrlocData.pairs, List.lookup_cons, List.lookup_nil]
  repeat' split
  all_goals rfl

/-- All fields are written each time. -/
theorem written_again : written data.pairs (some (written other.pairs none)) =
    written data.pairs none := by
  funext field
  have same := @lookup_pairs data other field
  unfold written
  cases own : data.pairs.lookup field with
  | some value => rfl
  | none =>
    rw [own] at same
    cases earlier : other.pairs.lookup field with
    | some value =>
      rw [earlier] at same
      cases same
    | none => simp [earlier]

theorem contactKey_inj {user first second : String}
    (same : contactKey user first = contactKey user second) : first = second :=
  (String.append_right_inj _).mp same

end Stored

section Store
variable {owner : String} {calls : List Call} {now : ℕ} {store : Store}

/-- A contact in force is in the list if an older one is. -/
def Joined (calls : List Call) (now : ℕ) (locations : List String) : Prop :=
  ∀ locationId data, registered calls now locationId = some data →
    ∀ other ∈ locations, callsSince calls locationId < callsSince calls other →
    locationId ∈ locations

/-- The store says what the calls say. -/
structure Kept (owner : String) (calls : List Call) (now : ℕ) (store : Store) : Prop where
  contacts : ∀ locationId time, now ≤ time →
    read time (store.contacts (contactKey owner locationId)) =
      (registered calls time locationId).map fun data => written data.pairs none
  listed : Listed calls (store.locations (locationKey owner))
  joined : Joined calls now (store.locations (locationKey owner))

theorem start_kept (owner : String) (now : ℕ) :
    Kept owner [] now (State.start now).store where
  contacts := fun _ _ _ => rfl
  listed := ⟨List.nodup_nil, Nat.zero_le _, nofun, List.Pairwise.nil⟩
  joined := nofun

theorem Kept.later (kept : Kept owner calls now store) {later : ℕ} (after : now ≤ later) :
    Kept owner calls later store where
  contacts := fun locationId time reached =>
    kept.contacts locationId time (Nat.le_trans after reached)
  listed := kept.listed
  joined := fun locationId data still =>
    kept.joined locationId data (registered_earlier after still)

theorem Listed.filter {locations : List String} (listed : Listed calls locations)
    (keep : String → Bool) : Listed calls (locations.filter keep) where
  nodup := listed.nodup.filter _
  atMostTen := Nat.le_trans (List.length_filter_le _ _) listed.atMostTen
  registrations := fun locationId member =>
    listed.registrations locationId (List.mem_of_mem_filter member)
  newestFirst := listed.newestFirst.filter _

/-- A location is taken from the list as its contact is gone. -/
theorem Kept.lrem (kept : Kept owner calls now store) {locationId : String}
    (gone : registered calls now locationId = none) :
    Kept owner calls now (store.lrem (locationKey owner) locationId) := by
  have list : (store.lrem (locationKey owner) locationId).locations (locationKey owner) =
      (store.locations (locationKey owner)).filter (· ≠ locationId) := Function.update_self _ _ _
  refine ⟨kept.contacts, ?_, ?_⟩
  · rw [list]
    exact kept.listed.filter _
  · intro own data inForce other member newer
    rw [list] at member ⊢
    refine List.mem_filter.mpr
      ⟨kept.joined own data inForce other (List.mem_of_mem_filter member) newer, ?_⟩
    refine decide_eq_true fun same => ?_
    rw [same, gone] at inForce
    cases inForce

/-- A call for a location leaves what was said of the others, and the order of these. -/
theorem Listed.others {locations : List String} (listed : Listed calls locations) (call : Call) :
    Listed (call :: calls) (locations.filter (· ≠ call.data.locationId)) := by
  have rest := listed.filter (· ≠ call.data.locationId)
  have other : ∀ locationId ∈ locations.filter (· ≠ call.data.locationId),
      locationId ≠ call.data.locationId := fun locationId member =>
    of_decide_eq_true (List.mem_filter.mp member).2
  refine ⟨rest.nodup, rest.atMostTen, ?_, ?_⟩
  · intro locationId member
    rw [lastCall_cons, if_neg (other locationId member).symm]
    exact rest.registrations locationId member
  · refine rest.newestFirst.imp_of_mem ?_
    intro locationId second member secondMember newer
    rw [callsSince_cons (other locationId member), callsSince_cons (other second secondMember)]
    exact Nat.succ_lt_succ newer

theorem Listed.front {locations : List String} (listed : Listed calls locations) (call : Call) :
    (call.data.locationId :: locations.filter (· ≠ call.data.locationId)).Pairwise
      fun locationId other =>
        callsSince (call :: calls) locationId < callsSince (call :: calls) other := by
  refine List.pairwise_cons.mpr ⟨fun other member => ?_, (listed.others call).newestFirst⟩
  have apart : other ≠ call.data.locationId :=
    of_decide_eq_true (List.mem_filter.mp member).2
  rw [callsSince_own, callsSince_cons apart]
  exact Nat.succ_pos _

theorem Listed.pushed {locations : List String} (listed : Listed calls locations) (call : Call)
    (registration : 0 < call.data.expires) :
    Listed (call :: calls) ((call.data.locationId ::
      locations.filter (· ≠ call.data.locationId)).take 10) := by
  have rest := listed.others call
  have fresh : call.data.locationId ∉ locations.filter (· ≠ call.data.locationId) := by simp
  refine ⟨(List.nodup_cons.mpr ⟨fresh, rest.nodup⟩).sublist (List.take_sublist _ _),
    List.length_take_le _ _, ?_, (listed.front call).sublist (List.take_sublist _ _)⟩
  intro locationId member
  rcases List.mem_cons.mp (List.mem_of_mem_take member) with rfl | older
  · refine ⟨call, ?_, registration⟩
    rw [lastCall_cons, if_pos rfl]
    exact Option.mem_some_self call
  · exact rest.registrations locationId older

theorem Joined.others {locations : List String} (joined : Joined calls now locations) {call : Call}
    {locationId : String} {data : UsrlocData}
    (inForce : registered (call :: calls) now locationId = some data)
    (apart : locationId ≠ call.data.locationId) {other : String}
    (member : other ∈ locations.filter (· ≠ call.data.locationId))
    (newer : callsSince (call :: calls) locationId < callsSince (call :: calls) other) :
    locationId ∈ locations.filter (· ≠ call.data.locationId) := by
  obtain ⟨inside, otherApart⟩ := List.mem_filter.mp member
  rw [registered_cons, if_neg apart.symm] at inForce
  rw [callsSince_cons apart, callsSince_cons (of_decide_eq_true otherApart)] at newer
  have listed := joined locationId data inForce other inside (Nat.lt_of_succ_lt_succ newer)
  exact List.mem_filter.mpr ⟨listed, decide_eq_true apart⟩

theorem Joined.taken {locations : List String} (joined : Joined calls now locations) {call : Call}
    (gone : ¬0 < call.data.expires) :
    Joined (call :: calls) now (locations.filter (· ≠ call.data.locationId)) := by
  intro locationId data inForce other member newer
  refine joined.others inForce (fun same => ?_) member newer
  rw [registered_cons, if_pos same.symm, if_neg fun both => gone both.1] at inForce
  cases inForce

/-- What is cut off is older than what stays. -/
theorem mem_take_of_newer {locations : List String} {n : ℕ}
    (ordered : locations.Pairwise fun locationId other =>
      callsSince calls locationId < callsSince calls other)
    {locationId other : String} (inside : locationId ∈ locations) (kept : other ∈ locations.take n)
    (newer : callsSince calls locationId < callsSince calls other) :
    locationId ∈ locations.take n := by
  rw [← List.take_append_drop n locations] at inside ordered
  rcases List.mem_append.mp inside with front | back
  · exact front
  · have older := (List.pairwise_append.mp ordered).2.2 other kept locationId back
    exact absurd newer (Nat.lt_asymm older)

theorem Joined.pushed {locations : List String} (joined : Joined calls now locations) {call : Call}
    (ordered : (call.data.locationId ::
      locations.filter (· ≠ call.data.locationId)).Pairwise fun locationId other =>
        callsSince (call :: calls) locationId < callsSince (call :: calls) other) :
    Joined (call :: calls) now ((call.data.locationId ::
      locations.filter (· ≠ call.data.locationId)).take 10) := by
  intro locationId data inForce other member newer
  refine mem_take_of_newer ordered ?_ member newer
  by_cases own : locationId = call.data.locationId
  · exact own ▸ List.mem_cons_self
  · rcases List.mem_cons.mp (List.mem_of_mem_take member) with rfl | older
    · rw [callsSince_own] at newer
      exact absurd newer (Nat.not_lt_zero _)
    · exact List.mem_cons_of_mem _ (joined.others inForce own older newer)

theorem storeToRedis_other (data : UsrlocData) {key : String}
    (other : key ≠ contactKey data.user data.locationId) :
    (storeToRedis now data store).contacts key = store.contacts key := by
  unfold storeToRedis
  split
  · simp only [Store.ltrim, Store.lpush, Store.lrem, Store.expire]
    split <;> simp [Store.hmset, Function.update_of_ne other]
  · simp [Store.lrem, Store.del, Function.update_of_ne other]

theorem storeToRedis_contact {data : UsrlocData} (registration : 0 < data.expires)
    (accepted : now + 1000 * data.expires ≤ lastTime) :
    (storeToRedis now data store).contacts (contactKey data.user data.locationId) =
      expireAt now (now + 1000 * data.expires)
        (edit now (written data.pairs)
          (store.contacts (contactKey data.user data.locationId))) := by
  unfold storeToRedis
  rw [if_pos registration]
  simp only [Store.ltrim, Store.lpush, Store.lrem, Store.expire, if_pos accepted, Store.hmset,
    Function.update_self]

theorem storeToRedis_list {data : UsrlocData} (registration : 0 < data.expires) :
    (storeToRedis now data store).locations (locationKey data.user) =
      (data.locationId ::
        (store.locations (locationKey data.user)).filter (· ≠ data.locationId)).take 10 := by
  unfold storeToRedis
  rw [if_pos registration]
  simp only [Store.ltrim, Store.lpush, Store.lrem, Function.update_self, Store.expire]
  split <;> rfl

theorem storeToRedis_gone {data : UsrlocData} (taken : ¬0 < data.expires) :
    (storeToRedis now data store).contacts (contactKey data.user data.locationId) = none ∧
      (storeToRedis now data store).locations (locationKey data.user) =
        (store.locations (locationKey data.user)).filter (· ≠ data.locationId) := by
  unfold storeToRedis
  rw [if_neg taken]
  simp [Store.lrem, Store.del]

/-- What stands under a contact's key after a call, until Redis drops it. -/
theorem storeToRedis_contacts (kept : Kept owner calls now store) {data : UsrlocData}
    (own : data.user = owner)
    (accepted : now + 1000 * data.expires ≤ lastTime) (locationId : String) (time : ℕ)
    (reached : now ≤ time) :
    read time ((storeToRedis now data store).contacts (contactKey owner locationId)) =
      (registered (⟨now, data⟩ :: calls) time locationId).map fun data =>
        written data.pairs none := by
  subst own
  rw [registered_cons]
  by_cases same : data.locationId = locationId
  · subst same
    rw [if_pos rfl]
    by_cases registration : 0 < data.expires
    · rw [storeToRedis_contact registration accepted, read_expireAt, read_edit_now,
        kept.contacts _ now (Nat.le_refl now)]
      have whole : written data.pairs ((registered calls now data.locationId).map fun data =>
          written data.pairs none) = written data.pairs none := by
        cases registered calls now data.locationId with
        | none => rfl
        | some earlier => exact written_again
      rw [whole]
      by_cases inTime : time < now + 1000 * data.expires
      · rw [if_pos inTime, if_pos ⟨registration, inTime⟩, Option.map_some]
      · rw [if_neg inTime, if_neg fun both => inTime both.2, Option.map_none]
    · rw [(storeToRedis_gone registration).1, if_neg fun both => registration both.1]
      rfl
  · rw [if_neg same, storeToRedis_other _ fun keys => same (contactKey_inj keys).symm]
    exact kept.contacts locationId time reached

theorem stored_kept (kept : Kept owner calls now store) {data : UsrlocData}
    (own : data.user = owner) (accepted : now + 1000 * data.expires ≤ lastTime) :
    Kept owner (⟨now, data⟩ :: calls) now (storeToRedis now data store) := by
  subst own
  by_cases registration : 0 < data.expires
  · refine ⟨storeToRedis_contacts kept rfl accepted, ?_, ?_⟩
    · rw [storeToRedis_list registration]
      exact kept.listed.pushed ⟨now, data⟩ registration
    · rw [storeToRedis_list registration]
      exact @Joined.pushed _ _ _ kept.joined ⟨now, data⟩ (kept.listed.front ⟨now, data⟩)
  · refine ⟨storeToRedis_contacts kept rfl accepted, ?_, ?_⟩
    · rw [(storeToRedis_gone registration).2]
      exact kept.listed.others ⟨now, data⟩
    · rw [(storeToRedis_gone registration).2]
      exact @Joined.taken _ _ _ kept.joined ⟨now, data⟩ registration

end Store

section Rounds
variable {form : FormUrlencoded} {toLowercase : String → String} {user : User}
  {calls : List Call} {first : ℕ}

/-- What a round does, by what is registered as it reads the contact. -/
theorem round_cases {progress : Progress} {locationId : String} {pause : ℕ}
    (kept : Kept (toLowercase user.name) calls (progress.now + pause) progress.store) :
    (registered calls (progress.now + pause) locationId = none ∧
      progress.round form toLowercase user locationId pause =
        { progress with
          now := progress.now + pause
          store := progress.store.lrem (locationKey (toLowercase user.name)) locationId }) ∨
    (∃ data, registered calls (progress.now + pause) locationId = some data ∧
      (∀ address ∈ readableTarget form user data, address ∈ progress.seen) ∧
      progress.round form toLowercase user locationId pause =
        { progress with now := progress.now + pause }) ∨
    ∃ data location, registered calls (progress.now + pause) locationId = some data ∧
      readContact form user (written data.pairs none) = some location ∧
      receivedOf location.dstUri ∉ progress.seen ∧
      ∃ locations, (locations = progress.locations ∨
          locations = progress.locations ++ [location]) ∧
        progress.round form toLowercase user locationId pause =
          ⟨progress.now + pause, progress.store,
            receivedOf location.dstUri :: progress.seen, locations⟩ := by
  have there := kept.contacts locationId (progress.now + pause) (Nat.le_refl _)
  cases inForce : registered calls (progress.now + pause) locationId with
  | none =>
    rw [inForce] at there
    exact Or.inl ⟨rfl, by simp only [Progress.round, lookupOne, there, Option.map_none]⟩
  | some data =>
    rw [inForce, Option.map_some] at there
    refine Or.inr ?_
    cases made : readContact form user (written data.pairs none) with
    | none =>
      refine Or.inl ⟨data, rfl, ?_, by simp only [Progress.round, lookupOne, there, made]⟩
      simp [readableTarget, made]
    | some location =>
      by_cases old : receivedOf location.dstUri ∈ progress.seen
      · refine Or.inl ⟨data, rfl, ?_, by
          simp only [Progress.round, lookupOne, there, made, if_pos old]⟩
        simp [readableTarget, made, old]
      · refine Or.inr ⟨data, location, rfl, made, old, ?_⟩
        simp only [Progress.round, lookupOne, there, made, if_neg old]
        by_cases full : tooMany location progress.locations
        · exact ⟨progress.locations, Or.inl rfl, by rw [if_pos full]⟩
        · exact ⟨progress.locations ++ [location], Or.inr rfl, by rw [if_neg full]⟩

/-- A lookup after some of the locations. -/
structure Visited (form : FormUrlencoded) (owner : String) (user : User) (calls : List Call)
    (first : ℕ) (visited : List String) (progress : Progress) : Prop where
  reached : first ≤ progress.now
  kept : Kept owner calls progress.now progress.store
  seen : ∀ locationId ∈ visited, ∀ data,
    registered calls progress.now locationId = some data →
    ∀ address ∈ readableTarget form user data, address ∈ progress.seen
  answered : Answered form user (readableTarget form user) calls first progress.now
    progress.locations
  within : ∀ location ∈ progress.locations, receivedOf location.dstUri ∈ progress.seen

theorem Answered.later {target : UsrlocData → Option Received} {last later : ℕ}
    {locations : List Location} (answered : Answered form user target calls first last locations)
    (after : last ≤ later) : Answered form user target calls first later locations := by
  refine ⟨fun location member => ⟨?_⟩, answered.onePerAddress⟩
  obtain ⟨locationId, time, data, since, until_, rest⟩ := (answered.found location member).registered
  exact ⟨locationId, time, data, since, Nat.le_trans until_ after, rest⟩

theorem visited_round {visited locations : List String} {progress : Progress}
    {locationId : String} {pause : ℕ} (joined : Joined calls first locations)
    (listed : locationId ∈ locations)
    (before : ∀ other ∈ locations, callsSince calls other < callsSince calls locationId →
      other ∈ visited)
    (done : Visited form (toLowercase user.name) user calls first visited progress) :
    Visited form (toLowercase user.name) user calls first (locationId :: visited)
      (progress.round form toLowercase user locationId pause) := by
  have later : progress.now ≤ progress.now + pause := Nat.le_add_right _ _
  have reached := Nat.le_trans done.reached later
  have kept := done.kept.later later
  have answered := done.answered.later later
  have seen : ∀ own ∈ visited, ∀ data, registered calls (progress.now + pause) own = some data →
      ∀ address ∈ readableTarget form user data, address ∈ progress.seen :=
    fun own member data still => done.seen own member data (registered_earlier later still)
  obtain ⟨gone, same⟩ | ⟨data, inForce, old, same⟩ |
    ⟨data, location, inForce, made, new, found, shape, same⟩ :=
      @round_cases form toLowercase user calls progress locationId pause kept
  · rw [same]
    refine ⟨reached, kept.lrem gone, ?_, answered, done.within⟩
    intro own member data still
    rcases List.mem_cons.mp member with rfl | earlier
    · rw [gone] at still
      cases still
    · exact seen own earlier data still
  · rw [same]
    refine ⟨reached, kept, ?_, answered, done.within⟩
    intro own member otherData still
    rcases List.mem_cons.mp member with rfl | earlier
    · obtain rfl := Option.some.inj (inForce.symm.trans still)
      exact old
    · exact seen own earlier otherData still
  · rw [same]
    have ownTarget : readableTarget form user data = some (receivedOf location.dstUri) := by
      rw [readableTarget, made, Option.map_some]
    have isFound : Found form user (readableTarget form user) calls first
        (progress.now + pause) location := by
      refine ⟨locationId, progress.now + pause, data, reached, Nat.le_refl _, inForce, made, ?_⟩
      intro other otherData otherInForce target
      by_contra newer
      have older := Nat.lt_of_not_le newer
      have earlier := registered_earlier reached otherInForce
      have inList := joined other otherData earlier locationId listed older
      exact new (seen other (before other inList older) otherData otherInForce _ target)
    refine ⟨reached, kept, ?_, ?_, ?_⟩
    · intro own member otherData still address read_
      rcases List.mem_cons.mp member with rfl | earlier
      · obtain rfl := Option.some.inj (inForce.symm.trans still)
        obtain rfl := Option.some.inj (ownTarget.symm.trans read_)
        exact List.mem_cons_self
      · exact List.mem_cons_of_mem _ (seen own earlier otherData still address read_)
    · rcases shape with rfl | rfl
      · exact answered
      · refine ⟨fun other member => ?_, ?_⟩
        · rcases List.mem_append.mp member with earlier | last
          · exact answered.found other earlier
          · obtain rfl := List.mem_singleton.mp last
            exact isFound
        · rw [List.map_append]
          refine List.nodup_append.mpr ⟨answered.onePerAddress, List.nodup_singleton _, ?_⟩
          intro address inside other last same
          obtain ⟨earlier, member, rfl⟩ := List.mem_map.mp inside
          obtain rfl := List.mem_singleton.mp last
          have inSeen := done.within earlier member
          rw [show receivedOf earlier.dstUri = receivedOf location.dstUri from same] at inSeen
          exact new inSeen
    · intro other member
      rcases shape with rfl | rfl
      · exact List.mem_cons_of_mem _ (done.within other member)
      · rcases List.mem_append.mp member with earlier | last
        · exact List.mem_cons_of_mem _ (done.within other earlier)
        · obtain rfl := List.mem_singleton.mp last
          exact List.mem_cons_self

theorem visited_rounds {locations : List String} (joined : Joined calls first locations)
    (rest : List String) : ∀ {visited : List String} {progress : Progress} {pauses : List ℕ},
    (∀ locationId ∈ locations, locationId ∈ visited ∨ locationId ∈ rest) →
    (∀ locationId ∈ rest, locationId ∈ locations) →
    (rest.Pairwise fun locationId other =>
      callsSince calls locationId < callsSince calls other) →
    Visited form (toLowercase user.name) user calls first visited progress →
    ∃ all, Visited form (toLowercase user.name) user calls first all
      (Progress.rounds form toLowercase user rest pauses progress) := by
  induction rest with
  | nil =>
    intro visited progress pauses _ _ _ done
    exact ⟨visited, done⟩
  | cons locationId rest ih =>
    intro visited progress pauses split inside ordered done
    obtain ⟨first_, later⟩ := List.pairwise_cons.mp ordered
    have next := @visited_round form toLowercase user calls _ _ _ _ _ (pauses.headD 0) joined
      (inside locationId List.mem_cons_self) (fun other member newer => ?_) done
    · refine ih (fun other member => ?_)
        (fun other member => inside other (List.mem_cons_of_mem _ member)) later next
      rcases split other member with earlier | own
      · exact Or.inl (List.mem_cons_of_mem _ earlier)
      · rcases List.mem_cons.mp own with rfl | rest_
        · exact Or.inl List.mem_cons_self
        · exact Or.inr rest_
    · rcases split other member with earlier | own
      · exact earlier
      · rcases List.mem_cons.mp own with rfl | rest_
        · exact absurd newer (Nat.lt_irrefl _)
        · exact absurd newer (Nat.lt_asymm (first_ other rest_))

theorem visited_lookup {now : ℕ} {store : Store}
    (kept : Kept (toLowercase user.name) calls now store) (pauses : List ℕ) :
    ∃ all, Visited form (toLowercase user.name) user calls now all
      (lookup form toLowercase user now pauses store) := by
  have nothing : Visited form (toLowercase user.name) user calls now [] ⟨now, store, [], []⟩ :=
    ⟨Nat.le_refl _, kept, fun _ member => absurd member List.not_mem_nil,
      ⟨fun _ member => absurd member List.not_mem_nil, List.nodup_nil⟩,
      fun _ member => absurd member List.not_mem_nil⟩
  exact visited_rounds kept.joined _ (fun locationId member => Or.inr member)
    (fun locationId member => member) kept.listed.newestFirst nothing

end Rounds

section Claimed
variable {form : FormUrlencoded} {toLowercase : String → String} {user : User}

theorem step_kept {state after : State} {event : Event}
    (kept : Kept (toLowercase user.name) state.calls state.now state.store)
    (accepted : OwnAccepted toLowercase user state event)
    (stepped : machine form toLowercase user state event = some after) :
    Kept (toLowercase user.name) after.calls after.now after.store := by
  cases event with
  | stored data =>
    cases stepped
    exact stored_kept kept (accepted data rfl).1 (accepted data rfl).2
  | looked pauses =>
    cases stepped
    obtain ⟨_, done⟩ := @visited_lookup form toLowercase user _ _ _ kept pauses
    exact done.kept
  | passed millis =>
    cases stepped
    exact kept.later (Nat.le_add_right _ _)

/-- The list and each lookup are right in every state, as far as contacts can be read. -/
theorem lookup_right (form : FormUrlencoded) (toLowercase : String → String) (user : User)
    (now : ℕ) (state : State)
    (run : Runs.Run (machine form toLowercase user) (OwnAccepted toLowercase user)
      (State.start now) state) :
    Right form user toLowercase (readableTarget form user) state := by
  have kept : Kept (toLowercase user.name) state.calls state.now state.store :=
    Runs.run_keeps (fun state => Kept (toLowercase user.name) state.calls state.now state.store)
      (start_kept _ now) (fun _ _ _ before accepted stepped => step_kept before accepted stepped)
      run
  refine ⟨kept.listed, fun pauses => ?_⟩
  obtain ⟨_, done⟩ := @visited_lookup form toLowercase user _ _ _ kept pauses
  exact done.answered

/-- The newest contact is in force, but what is found for its address is another one. -/
theorem not_answered {target : UsrlocData → Option Received} {call : Call} {calls : List Call}
    {now : ℕ} {locations : List Location} {location : Location} (found : location ∈ locations)
    (inForce : registered (call :: calls) now call.data.locationId = some call.data)
    (address : target call.data = some (receivedOf location.dstUri))
    (other : readContact form user (written call.data.pairs none) ≠ some location) :
    ¬Answered form user target (call :: calls) now now locations := by
  intro answered
  obtain ⟨locationId, time, data, after, before, read_, made, newest⟩ :=
    (answered.found location found).registered
  obtain rfl := Nat.le_antisymm before after
  have older := newest _ _ inForce address
  by_cases own : locationId = call.data.locationId
  · subst own
    obtain rfl := Option.some.inj (inForce.symm.trans read_)
    exact other made
  · rw [callsSince_own, callsSince_cons own] at older
    exact absurd older (Nat.not_succ_le_zero _)

def alice : User := ⟨"alice", none, "tenant", none, none⟩

def phone (locationId contact : String) (expires : ℕ) : UsrlocData :=
  ⟨"alice", "call", locationId, "proxy", contact, "sip:10.0.0.1:5060", "", "", "", expires⟩

/-- The state after phones behind one address have registered at once, the last of them first. -/
def after : List UsrlocData → State
  | [] => State.start 0
  | data :: earlier =>
    { now := 0, store := storeToRedis 0 data (after earlier).store
      calls := ⟨0, data⟩ :: (after earlier).calls }

theorem after_now (stored : List UsrlocData) : (after stored).now = 0 := by
  cases stored <;> rfl

theorem after_run {guard : Runs.Guard State Event} (stored : List UsrlocData)
    (allowed : ∀ data ∈ stored, ∀ state, state.now = 0 → guard state (.stored data)) :
    Runs.Run (machine SipText.unaryForm id alice) guard (State.start 0) (after stored) := by
  induction stored with
  | nil => exact Runs.Run.start
  | cons data earlier ih =>
    have before := ih fun other member => allowed other (List.mem_cons_of_mem _ member)
    have now := after_now earlier
    refine Runs.Run.next before (allowed data List.mem_cons_self _ now) ?_
    simp only [machine, now]
    rfl

/-- A phone, and then one behind the same address that gives no contact. -/
def unreadable : List UsrlocData := [phone "second" "" 3600, phone "first" "<sip:a@b>" 3600]

theorem unreadable_run : Runs.Run (machine SipText.unaryForm id alice) (OwnAccepted id alice)
    (State.start 0) (after unreadable) := by
  refine after_run unreadable ?_
  rintro data member state atStart other ⟨⟩
  rw [atStart]
  revert data
  decide

theorem lookup_right_unreadable :
    Right SipText.unaryForm alice id (readableTarget SipText.unaryForm alice)
      (after unreadable) :=
  lookup_right SipText.unaryForm id alice 0 (after unreadable) unreadable_run

/-- A phone, and then another one, whose last refresh asks for more than Redis can keep. -/
def refused : List UsrlocData :=
  [phone "second" "<sip:c@d>" lastTime, phone "second" "<sip:c@d>" 10,
    phone "first" "<sip:a@b>" 3600]

def later : State := { after refused with now := 10000 }

theorem later_run : Runs.Run (machine SipText.unaryForm id alice) (OwnData id alice)
    (State.start 0) later := by
  have before : Runs.Run (machine SipText.unaryForm id alice) (OwnData id alice)
      (State.start 0) (after refused) := by
    refine after_run refused ?_
    rintro data member state atStart other ⟨⟩
    revert data
    decide
  exact @Runs.Run.next _ _ _ _ _ _ _ (.passed 10000) before (fun _ stored => nomatch stored) rfl

/-- What is found once the first phone is all that can be read. -/
def FirstFound (state : State) : Prop :=
  (lookup SipText.unaryForm id alice state.now [] state.store).locations.map
    (fun location => (receivedOf location.dstUri, location.reqUri.user)) =
      [(("10.0.0.1".toList, 5060, .Udp), some ['a'])] ∧
  (lookup SipText.unaryForm id alice state.now [] state.store).now = state.now

instance decidableFirstFound (state : State) : Decidable (FirstFound state) :=
  inferInstanceAs (Decidable (_ ∧ _))

theorem not_right {target : UsrlocData → Option Received} {state : State} {call : Call}
    {calls : List Call} (shape : state.calls = call :: calls) (found : FirstFound state)
    (inForce : registered (call :: calls) state.now call.data.locationId = some call.data)
    (address : target call.data = some ("10.0.0.1".toList, 5060, .Udp))
    (other : (readContact SipText.unaryForm alice (written call.data.pairs none)).all
      fun location => location.reqUri.user ≠ some ['a']) :
    ¬Right SipText.unaryForm alice id target state := by
  rintro ⟨_, answered⟩
  have none_ := answered []
  simp only [found.2, shape] at none_
  obtain ⟨location, rest, looked, same, _⟩ := List.map_eq_cons_iff.mp found.1
  obtain ⟨addressSame, userSame⟩ := Prod.mk.inj same
  refine not_answered (by rw [looked]; exact List.mem_cons_self) inForce
    (address.trans (congrArg some addressSame.symm)) (fun made => ?_) none_
  rw [made] at other
  simp [userSame] at other

/-- The first phone is found though the second was registered last: where the second gives no
    contact, and where Redis did not keep its last expiry. -/
theorem newer_not_found :
    (¬∀ (form : FormUrlencoded) (toLowercase : String → String) (user : User) (now : ℕ)
      (state : State),
      Runs.Run (machine form toLowercase user) (OwnAccepted toLowercase user) (State.start now)
        state →
      Right form user toLowercase (anyTarget form) state) ∧
    ¬∀ (form : FormUrlencoded) (toLowercase : String → String) (user : User) (now : ℕ)
      (state : State),
      Runs.Run (machine form toLowercase user) (OwnData toLowercase user) (State.start now) state →
      Right form user toLowercase (readableTarget form user) state := by
  constructor
  · intro always
    exact not_right rfl (by decide +kernel) (by decide) (by decide +kernel) (by decide +kernel)
      (always SipText.unaryForm id alice 0 _ unreadable_run)
  · intro always
    exact not_right rfl (by decide +kernel) (by decide) (by decide +kernel) (by decide +kernel)
      (always SipText.unaryForm id alice 0 _ later_run)

end Claimed

end LocationList
