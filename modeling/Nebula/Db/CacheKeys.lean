import Nebula.Db.Cache

/- Which changes flush the key that a lookup's result is cached under. Of the tables that
   lookups of short codes and of trunk authorisations read, one is covered. -/
namespace CacheKeys
open Cache

inductive Lookup where
  | get_shortcode (tenant_uuid code : String)
  | get_trunk_by_ip (ip info : String)
  | get_trunk_by_user (user : String)

/-- The key under which the result is cached, also where it is None. -/
def Lookup.key : Lookup → String
  | .get_shortcode tenant_uuid code => "nebula:cache:shortcode:" ++ tenant_uuid ++ ":" ++ code
  | .get_trunk_by_ip ip info => "nebula:cache:trunk:ip:" ++ ip ++ ":" ++ info
  | .get_trunk_by_user user => "nebula:cache:trunk:user:" ++ user

/-- The lookup finds the same in both databases. -/
def Lookup.Same (db after : Database) : Lookup → Prop
  | .get_shortcode tenant_uuid code =>
    Cache.get_shortcode tenant_uuid code db = Cache.get_shortcode tenant_uuid code after
  | .get_trunk_by_ip ip info =>
    Cache.get_trunk_by_ip ip info db = Cache.get_trunk_by_ip ip info after
  | .get_trunk_by_user user => Cache.get_trunk_by_user user db = Cache.get_trunk_by_user user after

theorem mem_flush {Row : Type} [CacheKey Row] {before after : Option Row} {key : String} :
    key ∈ flush_model_cache before after ↔
      ∃ row, (row ∈ before ∨ row ∈ after) ∧ key ∈ CacheKey.cache_keys row := by
  unfold flush_model_cache
  simp only [List.mem_append, List.mem_flatMap, Option.mem_toList]
  constructor
  · rintro (⟨row, found, isKey⟩ | ⟨row, found, isKey⟩)
    · exact ⟨row, Or.inl found, isKey⟩
    · exact ⟨row, Or.inr found, isKey⟩
  · rintro ⟨row, found | found, isKey⟩
    · exact Or.inl ⟨row, found, isKey⟩
    · exact Or.inr ⟨row, found, isKey⟩

section
variable (tenant_uuid code tenant_id : String)

theorem apart_from_all : "nebula:cache:shortcode:" ++ tenant_uuid ++ ":" ++ code ≠
    "nebula:cache:shortcodes:" ++ tenant_id := by
  intro same
  have letters := congrArg String.toList same
  simp [String.toList_append] at letters

theorem apart_from_in_channel : "nebula:cache:shortcode:" ++ tenant_uuid ++ ":" ++ code ≠
    "nebula:cache:shortcodes:in_channel:" ++ tenant_id := by
  intro same
  have letters := congrArg String.toList same
  simp [String.toList_append] at letters

theorem apart_from_no_star : "nebula:cache:shortcode:" ++ tenant_uuid ++ ":" ++ code ≠
    "nebula:cache:shortcodes:no_star:" ++ tenant_id := by
  intro same
  have letters := congrArg String.toList same
  simp [String.toList_append] at letters

end

/-- None of the keys of a short code is the one that a lookup of it is cached under. -/
theorem shortcode_key_apart (row : ShortCode) (tenant_uuid code : String) :
    (Lookup.get_shortcode tenant_uuid code).key ∉ CacheKey.cache_keys row := by
  change "nebula:cache:shortcode:" ++ tenant_uuid ++ ":" ++ code ∉ CacheKey.cache_keys row
  simp only [CacheKey.cache_keys, List.mem_cons, List.not_mem_nil, or_false, not_or]
  exact ⟨apart_from_all _ _ _, apart_from_in_channel _ _ _, apart_from_no_star _ _ _⟩

theorem flushed_of_table {change : Change} (monitored : change.table ∈ tables) :
    flushed change = flush_cache change :=
  if_pos monitored

/-- A change of a short code flushes no lookup by its code. -/
theorem shortcode_kept (row : RowChange ShortCode) (tenant_uuid code : String) :
    (Lookup.get_shortcode tenant_uuid code).key ∉ flushed (.shortcodes row) := by
  have monitored : (Change.shortcodes row).table ∈ tables := by
    change "shortcodes" ∈ tables
    decide
  rw [flushed_of_table monitored]
  intro isKey
  obtain ⟨found, _, isKey⟩ := mem_flush.mp isKey
  exact shortcode_key_apart found tenant_uuid code isKey

/-- No change of a trunk authorisation flushes anything. -/
theorem trunk_auths_kept (row : RowChange TrunkAuth) : flushed (.trunk_auths row) = [] := by
  have unmonitored : (Change.trunk_auths row).table ∉ tables := by
    change "trunk_auths" ∉ tables
    decide
  exact if_neg unmonitored

/-- A change of an address that a lookup finds, before it or after it, flushes its key. -/
theorem trunk_auth_ip_flushed (row : RowChange TrunkAuthIp) (ip info : String)
    (changed : row.old.find? (fun row => row.deleted = 0 && row.ip = ip && row.info = info) ≠
      row.new.find? fun row => row.deleted = 0 && row.ip = ip && row.info = info) :
    (Lookup.get_trunk_by_ip ip info).key ∈ flushed (.trunk_auth_ips row) := by
  have monitored : (Change.trunk_auth_ips row).table ∈ tables := by
    change "trunk_auth_ips" ∈ tables
    decide
  have ofRow : ∀ found : TrunkAuthIp,
      (found.deleted = 0 && found.ip = ip && found.info = info : Bool) = true →
        (Lookup.get_trunk_by_ip ip info).key ∈ CacheKey.cache_keys found := by
    intro found passed
    simp only [Bool.and_eq_true, decide_eq_true_eq] at passed
    obtain ⟨⟨_, rfl⟩, rfl⟩ := passed
    exact List.mem_singleton_self _
  rw [flushed_of_table monitored]
  apply mem_flush.mpr
  rcases row.find_changed changed with ⟨found, isBefore, passed⟩ | ⟨found, isAfter, passed⟩
  · exact ⟨found, Or.inl isBefore, ofRow found passed⟩
  · exact ⟨found, Or.inr isAfter, ofRow found passed⟩

theorem trunk_auth_ip_of_changed {db after : Database} {row : RowChange TrunkAuthIp}
    (commits : (Change.trunk_auth_ips row).Commits db after) {ip info : String}
    (changed : get_trunk_by_ip ip info db ≠ get_trunk_by_ip ip info after) :
    row.old.find? (fun row => row.deleted = 0 && row.ip = ip && row.info = info) ≠
      row.new.find? fun row => row.deleted = 0 && row.ip = ip && row.info = info := by
  obtain ⟨isOld, rfl⟩ := commits
  intro same
  refine changed ?_
  unfold get_trunk_by_ip
  rw [isOld, same]
  rfl

/-- A change that changes the result of a lookup flushes its key exactly if it is one of
    the addresses of trunks. -/
theorem flushed_iff_address (lookup : Lookup) (db after : Database) (change : Change)
    (commits : change.Commits db after) (changed : ¬ lookup.Same db after) :
    lookup.key ∈ flushed change ↔ change.table = "trunk_auth_ips" := by
  cases change with
  | shortcodes row =>
    have apart : (Change.shortcodes row).table ≠ "trunk_auth_ips" := by
      change "shortcodes" ≠ "trunk_auth_ips"
      decide
    refine iff_of_false ?_ apart
    obtain ⟨_, rfl⟩ := commits
    cases lookup with
    | get_shortcode tenant_uuid code => exact shortcode_kept row tenant_uuid code
    | get_trunk_by_ip ip info => exact absurd rfl changed
    | get_trunk_by_user user => exact absurd rfl changed
  | trunk_auth_ips row =>
    refine iff_of_true ?_ rfl
    cases lookup with
    | get_trunk_by_ip ip info =>
      exact trunk_auth_ip_flushed row ip info (trunk_auth_ip_of_changed commits changed)
    | get_shortcode tenant_uuid code =>
      obtain ⟨_, rfl⟩ := commits
      exact absurd rfl changed
    | get_trunk_by_user user =>
      obtain ⟨_, rfl⟩ := commits
      exact absurd rfl changed
  | trunk_auths row =>
    have apart : (Change.trunk_auths row).table ≠ "trunk_auth_ips" := by
      change "trunk_auths" ≠ "trunk_auth_ips"
      decide
    rw [trunk_auths_kept]
    exact iff_of_false List.not_mem_nil apart
  | call_flows row =>
    obtain ⟨_, rfl⟩ := commits
    cases lookup <;> exact absurd rfl changed

def office : TrunkAuthIp := ⟨1, "ip-1", "t-1", 0, "192.0.2.1", ""⟩

def office_auth : TrunkAuth := ⟨1, "auth-1", "t-1", 0, "trunk-1", "trunkauthip", "ip-1"⟩

def voicemail_code : ShortCode := ⟨1, "code-1", "t-1", 0, "*97", false, false, "voicemail", none⟩

def with_office : Database := ⟨[voicemail_code], [office], [office_auth], []⟩

/-- The address of a trunk is deleted. -/
def office_deleted : RowChange TrunkAuthIp := ⟨[], some office, some { office with deleted := 1 }, []⟩

/-- A trunk that is revoked by its address is looked up anew. -/
theorem flushed_iff_address_office :
    (Lookup.get_trunk_by_ip "192.0.2.1" "").key ∈ flushed (.trunk_auth_ips office_deleted) := by
  have changed : ¬ (Lookup.get_trunk_by_ip "192.0.2.1" "").Same with_office
      { with_office with trunk_auth_ips := office_deleted.new } := by
    change get_trunk_by_ip "192.0.2.1" "" _ ≠ get_trunk_by_ip "192.0.2.1" "" _
    decide
  exact (flushed_iff_address _ _ _ (.trunk_auth_ips office_deleted) ⟨rfl, rfl⟩ changed).mpr rfl

/-- A short code is deleted. -/
def code_deleted : RowChange ShortCode :=
  ⟨[], some voicemail_code, some { voicemail_code with deleted := 1 }, []⟩

/-- A deleted short code is still found in the cache. -/
theorem deleted_code_kept : ¬ ∀ lookup db after change, Change.Commits db after change →
    ¬ Lookup.Same db after lookup → lookup.key ∈ flushed change := by
  intro complete
  have changed : ¬ (Lookup.get_shortcode "t-1" "*97").Same with_office
      { with_office with shortcodes := code_deleted.new } := by
    change get_shortcode "t-1" "*97" _ ≠ get_shortcode "t-1" "*97" _
    decide
  have isKey := complete _ _ _ (.shortcodes code_deleted) ⟨rfl, rfl⟩ changed
  exact shortcode_kept code_deleted "t-1" "*97" isKey

end CacheKeys
