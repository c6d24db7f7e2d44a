import Mathlib.Data.List.Basic

/- Cached lookups of the database, the rows they read, the keys that a row is cached
   under, and the keys that a change of a monitored table flushes. -/
namespace Cache

class CacheKey (Row : Type) where
  cache_keys : Row → List String

structure ShortCode where
  id : Int
  uuid : String
  tenant_id : String
  deleted : Int
  shortcode : String
  in_channel : Bool
  out_channel : Bool
  feature : String
  no_star : Option Bool
  deriving DecidableEq

instance : CacheKey ShortCode where
  cache_keys row :=
    ["nebula:cache:shortcodes:" ++ row.tenant_id,
      "nebula:cache:shortcodes:in_channel:" ++ row.tenant_id,
      "nebula:cache:shortcodes:no_star:" ++ row.tenant_id]

structure TrunkAuthIp where
  id : Int
  uuid : String
  tenant_id : String
  deleted : Int
  ip : String
  info : String
  deriving DecidableEq

instance : CacheKey TrunkAuthIp where
  cache_keys row := ["nebula:cache:trunk:ip:" ++ row.ip ++ ":" ++ row.info]

structure TrunkAuth where
  id : Int
  uuid : String
  tenant_id : String
  deleted : Int
  trunk_uuid : String
  discriminator : String
  member_uuid : String
  deriving DecidableEq

/-- What of a call flow a lookup reads or returns; the rest is its data. -/
structure CallFlow where
  id : Int
  uuid : String
  tenant_id : String
  deleted : Int
  flow : String
  deriving DecidableEq

instance : CacheKey CallFlow where
  cache_keys row := ["nebula:cache:callflow:" ++ row.uuid]

/-- The tables that the lookups read, each in the order that a query goes through it. -/
structure Database where
  shortcodes : List ShortCode
  trunk_auth_ips : List TrunkAuthIp
  trunk_auths : List TrunkAuth
  call_flows : List CallFlow

def get_shortcode (tenant_uuid code : String) (db : Database) : Option ShortCode :=
  db.shortcodes.find? fun row =>
    row.tenant_id = tenant_uuid && row.deleted = 0 && row.shortcode = code

def find_trunk_auth (discriminator member : String) (db : Database) : Option TrunkAuth :=
  db.trunk_auths.find? fun row =>
    row.deleted = 0 && row.discriminator = discriminator && row.member_uuid = member

def get_trunk_by_ip (ip info : String) (db : Database) : Option TrunkAuth :=
  match db.trunk_auth_ips.find? fun row => row.deleted = 0 && row.ip = ip && row.info = info with
  | some found => find_trunk_auth "trunkauthip" found.uuid db
  | none => none

def get_trunk_by_user (user : String) (db : Database) : Option TrunkAuth :=
  find_trunk_auth "sipuser" user db

def get_callflow (uuid : String) (db : Database) : Option CallFlow :=
  db.call_flows.find? fun row => row.uuid = uuid && row.deleted = 0

/-- One row of a table is inserted, updated or deleted. -/
structure RowChange (Row : Type) where
  first : List Row
  before : Option Row
  after : Option Row
  rest : List Row

namespace RowChange
variable {Row : Type}

def old (change : RowChange Row) : List Row :=
  change.first ++ change.before.toList ++ change.rest

def new (change : RowChange Row) : List Row :=
  change.first ++ change.after.toList ++ change.rest

/-- A search that ends elsewhere after a change passes the row before or after it. -/
theorem find_changed {test : Row → Bool} (change : RowChange Row)
    (changed : change.old.find? test ≠ change.new.find? test) :
    (∃ row ∈ change.before, test row = true) ∨ ∃ row ∈ change.after, test row = true := by
  by_contra neither
  rw [not_or] at neither
  have skipped : ∀ row : Option Row, (¬ ∃ found ∈ row, test found = true) →
      row.toList.find? test = none := by
    intro row passed
    cases row with
    | none => rfl
    | some found => simpa using passed
  refine changed ?_
  simp only [old, new, List.find?_append, skipped _ neither.1, skipped _ neither.2]

end RowChange

inductive Change where
  | shortcodes (row : RowChange ShortCode)
  | trunk_auth_ips (row : RowChange TrunkAuthIp)
  | trunk_auths (row : RowChange TrunkAuth)
  | call_flows (row : RowChange CallFlow)

def Change.table : Change → String
  | .shortcodes _ => "shortcodes"
  | .trunk_auth_ips _ => "trunk_auth_ips"
  | .trunk_auths _ => "trunk_auths"
  | .call_flows _ => "call_flows"

/-- The change is committed to the database. -/
def Change.Commits (db after : Database) : Change → Prop
  | .shortcodes row => db.shortcodes = row.old ∧ after = { db with shortcodes := row.new }
  | .trunk_auth_ips row =>
    db.trunk_auth_ips = row.old ∧ after = { db with trunk_auth_ips := row.new }
  | .trunk_auths row => db.trunk_auths = row.old ∧ after = { db with trunk_auths := row.new }
  | .call_flows row => db.call_flows = row.old ∧ after = { db with call_flows := row.new }

/-- The tables that monitor_cache follows. -/
def tables : List String :=
  ["sip_users", "numbers", "sounds", "extensions", "shortcodes", "hunt_groups",
    "hunt_group_members", "trunks", "trunk_auth_ips", "call_flows", "diaries", "recording",
    "black_list", "mobile_apps", "speed_dials", "queue_records", "queue_groups", "rooms",
    "room_members", "moh_classes", "moh_music", "providers", "login_as_users",
    "sipuser_aux_log", "sipuser_queue_login_log", "tenant_extensions"]

/-- The keys that are deleted. A row that was deleted has no after, which ends the call
    with an error, but only once the keys of before are gone. -/
def flush_model_cache {Row : Type} [CacheKey Row] (before after : Option Row) : List String :=
  before.toList.flatMap CacheKey.cache_keys ++ after.toList.flatMap CacheKey.cache_keys

/-- The table trunk_auths is not found. -/
def flush_cache : Change → List String
  | .shortcodes row => flush_model_cache row.before row.after
  | .trunk_auth_ips row => flush_model_cache row.before row.after
  | .trunk_auths _ => []
  | .call_flows row => flush_model_cache row.before row.after

def flushed (change : Change) : List String :=
  if change.table ∈ tables then flush_cache change else []

end Cache
