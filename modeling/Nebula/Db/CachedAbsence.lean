import Nebula.Db.Cache
import Nebula.Lib.Runs
import Mathlib.Logic.Function.Basic

/- Cached getters in a run of calls, with tasks that fail. A task that has no connection or
   whose query fails goes on as if there were no row, and what the getter makes of it is
   cached; a task that is lost ends the call before anything is cached. -/
namespace CachedAbsence
open Runs

/-- What becomes of a task that a getter spawns. -/
inductive Fate where
  | answered
  | noConnection
  | queryError
  | lost
  deriving DecidableEq

/-- The tasks of a getter: what it makes of a database that answers, and how it goes on
    with `None`, which a failure is folded into. -/
inductive Lookup (Db Row : Type) where
  | found (row : Option Row)
  | spawn (query : Db → Lookup Db Row) (folded : Lookup Db Row)

/-- What the database answers. -/
def Lookup.answer {Db Row : Type} (db : Db) : Lookup Db Row → Option Row
  | .found row => row
  | .spawn query _ => (query db).answer db

/-- What a lookup comes to, unless it ends the call, and whether one of its tasks failed. -/
structure Looked (Row : Type) where
  result : Option (Option Row)
  failed : Bool

def Lookup.run {Db Row : Type} (db : Db) (fates : Nat → Fate) :
    Lookup Db Row → Nat → Bool → Looked Row
  | .found row, _, failed => ⟨some row, failed⟩
  | .spawn query folded, n, failed =>
    match fates n with
    | .answered => (query db).run db fates (n + 1) failed
    | .noConnection | .queryError => folded.run db fates (n + 1) true
    | .lost => ⟨none, true⟩

/-- A cached result. `written` is no part of the code: the database at that time. -/
structure Entry (Db Row : Type) where
  value : Option Row
  written : Db

section Calls
variable {Key Db : Type} {Row : Key → Type} [DecidableEq Key]

structure Store (Db : Type) (Row : Key → Type) where
  db : Db
  cache : (key : Key) → Option (Entry Db (Row key))

/-- A call of the getter of a key: whether the cache can be read, what becomes of the tasks,
    whether the cache can be written. Besides, the database is changed, and an entry of the
    cache expires or is flushed. -/
inductive Event (Key Db : Type) where
  | call (key : Key) (seen : Bool) (fates : Nat → Fate) (stored : Bool)
  | change (db : Db)
  | drop (key : Key)

omit [DecidableEq Key] in
def getCache (store : Store Db Row) (key : Key) (seen : Bool) : Option (Option (Row key)) :=
  if seen then (store.cache key).map (·.value) else none

def putCache (store : Store Db Row) (key : Key) (row : Option (Row key)) (stored : Bool) :
    Store Db Row :=
  if stored then
    { store with cache := Function.update store.cache key (some ⟨row, store.db⟩) }
  else store

/-- What every cached getter does with its lookup. -/
def getter (lookups : (key : Key) → Lookup Db (Row key)) (store : Store Db Row) (key : Key)
    (seen : Bool) (fates : Nat → Fate) (stored : Bool) : Store Db Row × Option (Row key) :=
  match getCache store key seen with
  | some row => (store, row)
  | none =>
    match ((lookups key).run store.db fates 0 false).result with
    | some row => (putCache store key row stored, row)
    | none => (store, none)

def caching (lookups : (key : Key) → Lookup Db (Row key)) :
    Machine (Store Db Row) (Event Key Db)
  | store, .call key seen fates stored => some (getter lookups store key seen fates stored).1
  | store, .change db => some { store with db := db }
  | store, .drop key => some { store with cache := Function.update store.cache key none }

def start (db : Db) : Store Db Row := ⟨db, fun _ => none⟩

/-- Where the cache answers `None`, the database had no row when the entry was written. -/
def AbsencesTrue (lookups : (key : Key) → Lookup Db (Row key)) (store : Store Db Row) : Prop :=
  ∀ key entry, store.cache key = some entry → entry.value = none →
    (lookups key).answer entry.written = none

/-- A call that asks the database and in which a task fails. -/
def Fails (lookups : (key : Key) → Lookup Db (Row key)) (store : Store Db Row) (key : Key)
    (seen : Bool) (fates : Nat → Fate) : Prop :=
  getCache store key seen = none ∧ ((lookups key).run store.db fates 0 false).failed = true

/-- A call in which a task fails is ended by a lost task, or cannot write the cache. -/
def Guarded (lookups : (key : Key) → Lookup Db (Row key)) : Guard (Store Db Row) (Event Key Db)
  | store, .call key seen fates stored => Fails lookups store key seen fates →
      ((lookups key).run store.db fates 0 false).result = none ∨ stored = false
  | _, .change _ => True
  | _, .drop _ => True

end Calls

theorem run_failed {Db Row : Type} (db : Db) (fates : Nat → Fate) (lookup : Lookup Db Row)
    (n : Nat) : (lookup.run db fates n true).failed = true := by
  induction lookup generalizing n with
  | found row => rfl
  | spawn query folded ihQuery ihFolded =>
    unfold Lookup.run
    split
    · exact ihQuery db (n + 1)
    · exact ihFolded (n + 1)
    · exact ihFolded (n + 1)
    · rfl

/-- Without a failure a lookup comes to what the database answers. -/
theorem run_answer {Db Row : Type} (db : Db) (fates : Nat → Fate) (lookup : Lookup Db Row)
    (n : Nat) (worked : (lookup.run db fates n false).failed = false) :
    (lookup.run db fates n false).result = some (lookup.answer db) := by
  induction lookup generalizing n with
  | found row => rfl
  | spawn query folded ihQuery ihFolded =>
    unfold Lookup.run at worked ⊢
    split at worked
    · exact ihQuery db (n + 1) worked
    · rw [run_failed] at worked
      cases worked
    · rw [run_failed] at worked
      cases worked
    · cases worked

section Runs
variable {Key Db : Type} {Row : Key → Type} [DecidableEq Key]
variable {lookups : (key : Key) → Lookup Db (Row key)} {store : Store Db Row}

/-- What an entry is set to counts for its own key alone. -/
theorem update_absences (absences : AbsencesTrue lookups store) {key : Key}
    {entry : Option (Entry Db (Row key))}
    (own : ∀ held ∈ entry, held.value = none → (lookups key).answer held.written = none) :
    AbsencesTrue lookups { store with cache := Function.update store.cache key entry } := by
  intro other held cached absent
  dsimp only at cached
  by_cases same : other = key
  · subst same
    rw [Function.update_self] at cached
    exact own held cached absent
  · rw [Function.update_of_ne same] at cached
    exact absences other held cached absent

theorem put_absences (absences : AbsencesTrue lookups store) {key : Key}
    {row : Option (Row key)} (own : row = none → (lookups key).answer store.db = none)
    (stored : Bool) : AbsencesTrue lookups (putCache store key row stored) := by
  unfold putCache
  split
  · apply update_absences absences
    rintro _ ⟨⟩ absent
    exact own absent
  · exact absences

/-- A call that fails leaves the store as it was. -/
theorem failed_call_keeps {key : Key} {seen : Bool} {fates : Nat → Fate} {stored : Bool}
    (guarded : Guarded lookups store (.call key seen fates stored))
    (fails : Fails lookups store key seen fates) :
    (getter lookups store key seen fates stored).1 = store := by
  unfold getter
  rw [fails.1]
  dsimp only
  rcases guarded fails with ended | kept
  · rw [ended]
  · split
    · rw [kept]
      rfl
    · rfl

theorem call_absences (absences : AbsencesTrue lookups store) {key : Key} {seen : Bool}
    {fates : Nat → Fate} {stored : Bool}
    (guarded : Guarded lookups store (.call key seen fates stored)) :
    AbsencesTrue lookups (getter lookups store key seen fates stored).1 := by
  by_cases fails : Fails lookups store key seen fates
  · rw [failed_call_keeps guarded fails]
    exact absences
  · unfold getter
    split
    · exact absences
    · rename_i missed
      have worked : ((lookups key).run store.db fates 0 false).failed = false := by
        rw [← Bool.not_eq_true]
        exact fun failed => fails ⟨missed, failed⟩
      rw [run_answer store.db fates (lookups key) 0 worked]
      exact put_absences absences (fun absent => absent) stored

theorem event_absences (absences : AbsencesTrue lookups store) {event : Event Key Db}
    {after : Store Db Row} (guarded : Guarded lookups store event)
    (happened : caching lookups store event = some after) : AbsencesTrue lookups after := by
  cases event with
  | call key seen fates stored =>
    cases happened
    exact call_absences absences guarded
  | change db =>
    cases happened
    exact absences
  | drop key =>
    cases happened
    exact update_absences absences fun _ held => nomatch held

/-- A call that fails and writes is not guarded, and leaves an entry where none was. -/
theorem guarded_of_kept {key : Key} {fates : Nat → Fate} {stored : Bool}
    (fails : Fails lookups store key true fates)
    (kept : (getter lookups store key true fates stored).1 = store) :
    Guarded lookups store (.call key true fates stored) := by
  intro _
  have missed := fails.1
  unfold getCache at missed
  rw [if_pos rfl, Option.map_eq_none_iff] at missed
  unfold getter at kept
  rw [fails.1] at kept
  dsimp only at kept
  cases shown : ((lookups key).run store.db fates 0 false).result with
  | none => exact Or.inl rfl
  | some row =>
    rw [shown] at kept
    cases stored with
    | false => exact Or.inr rfl
    | true =>
      have entry : (putCache store key row true).cache key = store.cache key :=
        congrFun (congrArg Store.cache kept) key
      unfold putCache at entry
      rw [if_pos rfl] at entry
      dsimp only at entry
      rw [Function.update_self, missed] at entry
      cases entry

/-- In every run of guarded calls the cache answers `None` only where the database had no
    row, and a call that fails leaves the store as it was; where the cache could be read it
    does so only if the call is guarded. -/
theorem absences_true (lookups : (key : Key) → Lookup Db (Row key)) (db : Db)
    (last : Store Db Row) (run : Run (caching lookups) (Guarded lookups) (start db) last) :
    AbsencesTrue lookups last ∧
      ∀ key seen fates stored, Fails lookups last key seen fates →
        (Guarded lookups last (.call key seen fates stored) →
          (getter lookups last key seen fates stored).1 = last) ∧
        (seen = true → (getter lookups last key seen fates stored).1 = last →
          Guarded lookups last (.call key seen fates stored)) := by
  refine ⟨?_, ?_⟩
  · apply run_keeps (AbsencesTrue lookups) _ _ run
    · intro key entry cached
      cases cached
    · intro state event after absences guarded happened
      exact event_absences absences guarded happened
  · intro key seen fates stored fails
    refine ⟨fun guarded => failed_call_keeps guarded fails, ?_⟩
    rintro rfl kept
    exact guarded_of_kept fails kept

end Runs

section Getters
open Cache (Database TrunkAuth TrunkAuthIp find_trunk_auth)

/-- What of a user a lookup reads or returns; the rest is its data. -/
structure User where
  id : Int
  uuid : String
  name_lower : String
  deleted : Int
  data : String
  deriving DecidableEq

structure Tables where
  sip_users : List User
  trunks : Database

/-- Getters by what they are called with; a name is in lower case by then. -/
inductive Getter where
  | get_user_by_name (name : String)
  | get_trunk_by_ip (ip info : String)
  deriving DecidableEq

def Getter.Row : Getter → Type
  | .get_user_by_name _ => User
  | .get_trunk_by_ip _ _ => TrunkAuth

def get_user_by_name (name : String) : Lookup Tables User :=
  .spawn (fun db => .found (db.sip_users.find? fun row => row.name_lower = name && row.deleted = 0))
    (.found none)

/-- The second task is spawned only where the first has found an address. -/
def get_trunk_by_ip (ip info : String) : Lookup Tables TrunkAuth :=
  let next : Option TrunkAuthIp → Lookup Tables TrunkAuth
    | some found => .spawn (fun db => .found (find_trunk_auth "trunkauthip" found.uuid db.trunks))
        (.found none)
    | none => .found none
  .spawn (fun db => next (db.trunks.trunk_auth_ips.find? fun row =>
    row.deleted = 0 && row.ip = ip && row.info = info)) (next none)

def lookups : (getter : Getter) → Lookup Tables getter.Row
  | .get_user_by_name name => get_user_by_name name
  | .get_trunk_by_ip ip info => get_trunk_by_ip ip info

theorem get_trunk_by_ip_answer (ip info : String) (db : Tables) :
    (get_trunk_by_ip ip info).answer db = Cache.get_trunk_by_ip ip info db.trunks := by
  unfold get_trunk_by_ip Lookup.answer Cache.get_trunk_by_ip
  dsimp only
  cases db.trunks.trunk_auth_ips.find? fun row =>
    row.deleted = 0 && row.ip = ip && row.info = info with
  | none => rfl
  | some found => rfl

def alice : User := ⟨1, "u-1", "alice", 0, ""⟩

def oneUser : Tables := ⟨[alice], ⟨[], [], [], []⟩⟩

def asksAlice (fate : Fate) : Event Getter Tables :=
  .call (.get_user_by_name "alice") true (fun _ => fate) true

/-- A task is lost, and nothing is cached; the next call finds the user. -/
theorem absences_true_lost : ∃ last, runAll (caching lookups) (start oneUser)
    [asksAlice .lost, asksAlice .answered] = some last ∧ AbsencesTrue lookups last := by
  refine ⟨_, rfl, (absences_true lookups oneUser _ ?_).1⟩
  have called : ∀ (fate : Fate) (store : Store Tables Getter.Row),
      caching lookups store (asksAlice fate) =
        some (getter lookups store (.get_user_by_name "alice") true (fun _ => fate) true).1 :=
    fun _ _ => rfl
  refine Run.next (Run.next Run.start ?_ (called .lost _)) ?_ (called .answered _)
  · exact fun _ => Or.inl rfl
  · intro fails
    cases fails.2

/-- A pool without a connection makes a user absent for as long as an entry is kept. -/
theorem user_cached_absent : ¬ ∀ last, Reaches (caching lookups) (start oneUser) last →
    AbsencesTrue lookups last := by
  intro claimed
  have absences := claimed _ (reaches_of_runAll [asksAlice .noConnection] rfl)
  have absent := absences (.get_user_by_name "alice") ⟨none, oneUser⟩ rfl rfl
  cases absent

end Getters

end CachedAbsence
