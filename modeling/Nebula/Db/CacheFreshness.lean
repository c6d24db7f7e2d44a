import Nebula.Db.Cache
import Nebula.Lib.Interleaving

/- Getters that read a table through the cache, against changes of the table and the feed
   that flushes them. A result that is put back late, or a change that is passed over while
   the monitor is down, stays in the cache. -/
namespace CacheFreshness
open Cache Interleaving

/-- The getters of a table: what the one of a key asks the database. A change of its result
    is flushed. -/
structure Getters (Row : Type) [CacheKey Row] where
  query : String → List Row → Option Row
  covered : ∀ (key : String) (change : RowChange Row),
    query key change.old ≠ query key change.new →
      key ∈ flush_model_cache change.before change.after

/-- The rows, the cached results, and the keys that the changes on the feed are still to
    delete. There is no feed while the monitor is down. -/
structure Shared (Row : Type) where
  rows : List Row
  cache : String → Option (Option Row)
  feed : Option (List String)

inductive Stage (Row : Type) where
  | idle
  | get_cache (key : String)
  | read (key : String)
  | put_cache (key : String) (result : Option Row)
  | returned (result : Option Row)

/-- The database answers; it has no connection or the query fails, which is folded into no
    row; or the task that asks it is lost, which ends the call. -/
inductive Answer where
  | rows
  | failed
  | lost

/-- The key that is looked up, and how the database answers. -/
structure Choice where
  key : String
  answer : Answer

section
variable {Row : Type} [CacheKey Row]

def step (getters : Getters Row) (_pid : Nat) (choice : Choice) (shared : Shared Row) :
    Stage Row → Option (Shared Row × Stage Row)
  | .idle => some (shared, .get_cache choice.key)
  | .get_cache key =>
    match shared.cache key with
    | some result => some (shared, .returned result)
    | none => some (shared, .read key)
  | .read key =>
    some (shared, match choice.answer with
      | .rows => .put_cache key (getters.query key shared.rows)
      | .failed => .put_cache key none
      | .lost => .returned none)
  | .put_cache key result =>
    some ({ shared with cache := Function.update shared.cache key (some result) },
      .returned result)
  | .returned _ => none

/-- What happens beside the getters: a change is committed, a key of the feed is deleted, the
    feed breaks off, a new one starts with what is changed from then on, a key expires. -/
inductive Event (Row : Type) where
  | commit (change : RowChange Row)
  | delete (key : String)
  | breaks
  | reconnect
  | expire (key : String)

def outside [DecidableEq Row] (shared : Shared Row) : Event Row → Option (Shared Row)
  | .commit change =>
    if shared.rows = change.old then
      some { shared with
        rows := change.new
        feed := shared.feed.map (· ++ flush_model_cache change.before change.after) }
    else none
  | .delete key =>
    match shared.feed with
    | some pending =>
      if key ∈ pending then
        some { shared with
          cache := Function.update shared.cache key none, feed := some (pending.erase key) }
      else none
    | none => none
  | .breaks => some { shared with feed := none }
  | .reconnect =>
    match shared.feed with
    | some _ => none
    | none => some { shared with feed := some [] }
  | .expire key => some { shared with cache := Function.update shared.cache key none }

def caching [DecidableEq Row] (getters : Getters Row) : System (Shared Row) (Stage Row) Choice (Event Row) where
  step := step getters
  outside event shared := outside shared event

def start (rows : List Row) : World (Shared Row) (Stage Row) :=
  ⟨⟨rows, fun _ => none, some []⟩, fun _ => .idle⟩

/-- The feed will delete the key. -/
def Shared.Pending (shared : Shared Row) (key : String) : Prop :=
  ∃ pending ∈ shared.feed, key ∈ pending

/-- A cached result is what the database answers now. -/
def Current (getters : Getters Row) (rows : List Row) (key : String) (result : Option Row) :
    Prop :=
  result = getters.query key rows

def Fresh (getters : Getters Row) (shared : Shared Row) : Prop :=
  ∀ key result, shared.cache key = some result → Current getters shared.rows key result

/-- All changes have been delivered or passed over, and all getters have returned. -/
structure Settled (world : World (Shared Row) (Stage Row)) : Prop where
  delivered : ∀ key, ¬ world.shared.Pending key
  returned : ∀ pid, world.procs pid = .idle ∨ ∃ result, world.procs pid = .returned result

/-- A cached result is current, or the feed will delete it. -/
def Covered (getters : Getters Row) (shared : Shared Row) : Prop :=
  ∀ key result, shared.cache key = some result →
    Current getters shared.rows key result ∨ shared.Pending key

/-- A result is put back while it is current or its flush is still to come; while the
    monitor is down no cached result is changed; and when it goes down none is left on the
    feed that is not current. -/
def Guarded (getters : Getters Row) : Guard (Shared Row) (Stage Row) Choice (Event Row)
  | world, .proc pid _ => ∀ key result, world.procs pid = .put_cache key result →
      Current getters world.shared.rows key result ∨ world.shared.Pending key
  | world, .outside (.commit change) => world.shared.feed = none →
      ∀ key result, world.shared.cache key = some result → Current getters change.new key result
  | world, .outside .breaks => ∀ key result, world.shared.cache key = some result →
      Current getters world.shared.rows key result
  | _, .outside _ => True

theorem settled_fresh {getters : Getters Row} {world : World (Shared Row) (Stage Row)}
    (covered : Covered getters world.shared) (settled : Settled world) :
    Fresh getters world.shared := by
  intro key result cached
  rcases covered key result cached with current | pending
  · exact current
  · exact absurd pending (settled.delivered key)

theorem put_covered {getters : Getters Row} {shared : Shared Row} (covered : Covered getters shared)
    (key : String) (result : Option Row) :
    (Current getters shared.rows key result ∨ shared.Pending key) ↔
      Covered getters { shared with cache := Function.update shared.cache key (some result) } := by
  constructor
  · intro holds other cachedResult cached
    dsimp only at cached
    by_cases same : other = key
    · subst same
      rw [Function.update_self] at cached
      cases cached
      exact holds
    · rw [Function.update_of_ne same] at cached
      exact covered other cachedResult cached
  · intro after
    exact after key result (Function.update_self key _ shared.cache)

theorem dropped_covered {getters : Getters Row} {shared : Shared Row} {feed : Option (List String)}
    (covered : Covered getters shared) (key : String)
    (kept : ∀ other, other ≠ key → shared.Pending other → ∃ pending ∈ feed, other ∈ pending) :
    Covered getters { shared with cache := Function.update shared.cache key none, feed := feed } := by
  intro other result cached
  dsimp only at cached
  by_cases same : other = key
  · subst same
    rw [Function.update_self] at cached
    cases cached
  · rw [Function.update_of_ne same] at cached
    rcases covered other result cached with current | pending
    · exact Or.inl current
    · exact Or.inr (kept other same pending)

/-- A committed change leaves on the feed the keys of the results that it changes. -/
theorem committed_covered {getters : Getters Row} {shared : Shared Row}
    (covered : Covered getters shared) {change : RowChange Row} (old : shared.rows = change.old)
    {pending : List String} (feed : shared.feed = some pending) :
    Covered getters { shared with
      rows := change.new
      feed := some (pending ++ flush_model_cache change.before change.after) } := by
  intro key result cached
  rcases covered key result cached with current | ⟨_, isFeed, listed⟩
  · by_cases same : getters.query key change.old = getters.query key change.new
    · left
      unfold Current at current ⊢
      rw [current, old, same]
    · right
      exact ⟨_, rfl, List.mem_append_right _ (getters.covered key change same)⟩
  · right
    rw [feed] at isFeed
    cases isFeed
    exact ⟨_, rfl, List.mem_append_left _ listed⟩

theorem step_covered {getters : Getters Row} (pid : Nat) {choice : Choice}
    {shared after : Shared Row} {stage next : Stage Row} (covered : Covered getters shared)
    (stepped : step getters pid choice shared stage = some (after, next)) :
    (∀ key result, stage = .put_cache key result →
        Current getters shared.rows key result ∨ shared.Pending key) ↔
      Covered getters after := by
  cases stage with
  | returned result => cases stepped
  | put_cache key result =>
    obtain ⟨rfl, rfl⟩ := Prod.mk.inj (Option.some.inj stepped)
    rw [← put_covered covered key result]
    constructor
    · exact fun guarded => guarded key result rfl
    · rintro holds other otherResult ⟨⟩
      exact holds
  | idle | read key =>
    obtain ⟨rfl, rfl⟩ := Prod.mk.inj (Option.some.inj stepped)
    exact iff_of_true (fun _ _ isPut => by cases isPut) covered
  | get_cache key =>
    dsimp only [step] at stepped
    split at stepped <;> obtain ⟨rfl, rfl⟩ := Prod.mk.inj (Option.some.inj stepped) <;>
      exact iff_of_true (fun _ _ isPut => by cases isPut) covered

theorem outside_covered [DecidableEq Row] {getters : Getters Row}
    {world : World (Shared Row) (Stage Row)} {event : Event Row} {after : Shared Row}
    (covered : Covered getters world.shared) (happened : outside world.shared event = some after) :
    Guarded getters world (.outside event) ↔ Covered getters after := by
  cases event with
  | commit change =>
    obtain ⟨old, same⟩ := Option.ite_none_right_eq_some.mp happened
    cases same
    cases feed : world.shared.feed with
    | some pending =>
      refine iff_of_true (fun down => ?_) (committed_covered covered old feed)
      rw [feed] at down
      cases down
    | none =>
      constructor
      · intro guarded key result cached
        exact Or.inl (guarded feed key result cached)
      · intro coveredAfter _ key result cached
        rcases coveredAfter key result cached with current | ⟨_, isFeed, _⟩
        · exact current
        · cases isFeed
  | delete key =>
    refine iff_of_true trivial ?_
    dsimp only [outside] at happened
    cases feed : world.shared.feed with
    | none =>
      rw [feed] at happened
      cases happened
    | some pending =>
      rw [feed] at happened
      obtain ⟨_, same⟩ := Option.ite_none_right_eq_some.mp happened
      cases same
      apply dropped_covered covered
      rintro other different ⟨_, isFeed, listed⟩
      rw [feed] at isFeed
      cases isFeed
      exact ⟨_, rfl, (List.mem_erase_of_ne different).mpr listed⟩
  | breaks =>
    cases happened
    constructor
    · intro guarded key result cached
      exact Or.inl (guarded key result cached)
    · intro coveredAfter key result cached
      rcases coveredAfter key result cached with current | ⟨_, isFeed, _⟩
      · exact current
      · cases isFeed
  | reconnect =>
    refine iff_of_true trivial ?_
    dsimp only [outside] at happened
    cases feed : world.shared.feed with
    | some pending =>
      rw [feed] at happened
      cases happened
    | none =>
      rw [feed] at happened
      cases happened
      intro key result cached
      rcases covered key result cached with current | ⟨_, isFeed, _⟩
      · exact Or.inl current
      · rw [feed] at isFeed
        cases isFeed
  | expire key =>
    cases happened
    exact iff_of_true trivial (dropped_covered covered key fun _ _ pending => pending)

theorem action_covered [DecidableEq Row] {getters : Getters Row}
    {world after : World (Shared Row) (Stage Row)} {action : Action Choice (Event Row)}
    (covered : Covered getters world.shared) (acted : act (caching getters) world action = some after) :
    Guarded getters world action ↔ Covered getters after.shared := by
  rcases act_cases acted with ⟨pid, choice, shared, stage, rfl, stepped, rfl⟩ |
    ⟨event, shared, rfl, happened, rfl⟩
  · exact step_covered pid covered stepped
  · exact outside_covered covered happened

end

/-- In every run of guarded steps, once all changes are delivered or passed over and all
    getters have returned, what the cache answers is what the database answers; and the next
    step leaves nothing behind that will not be flushed exactly if it is guarded too. -/
theorem cache_fresh {Row : Type} [CacheKey Row] [DecidableEq Row] (getters : Getters Row)
    (rows : List Row) (last : World (Shared Row) (Stage Row))
    (run : Run (caching getters) (Guarded getters) (start rows) last) :
    (Settled last → Fresh getters last.shared) ∧
      ∀ action after, act (caching getters) last action = some after →
        (Guarded getters last action ↔ Covered getters after.shared) := by
  have covered : Covered getters last.shared := by
    apply run_keeps (fun world => Covered getters world.shared) _ _ run
    · intro key result cached
      cases cached
    · intro world action after covered guarded acted
      exact (action_covered covered acted).mp guarded
  exact ⟨settled_fresh covered, fun action after acted => action_covered covered acted⟩

/-- The lookups of call flows, by the keys that they are cached under. -/
def call_flows : Getters CallFlow where
  query key rows :=
    rows.find? fun row => "nebula:cache:callflow:" ++ row.uuid = key && row.deleted = 0
  covered key change changed := by
    have ofRow : ∀ row : CallFlow,
        ("nebula:cache:callflow:" ++ row.uuid = key && row.deleted = 0 : Bool) = true →
          key ∈ CacheKey.cache_keys row := by
      intro row passed
      rw [Bool.and_eq_true, decide_eq_true_eq] at passed
      rw [← passed.1]
      exact List.mem_singleton_self _
    unfold flush_model_cache
    rcases change.find_changed changed with ⟨row, isBefore, passed⟩ | ⟨row, isAfter, passed⟩
    · exact List.mem_append_left _
        (List.mem_flatMap.mpr ⟨row, Option.mem_toList.mpr isBefore, ofRow row passed⟩)
    · exact List.mem_append_right _
        (List.mem_flatMap.mpr ⟨row, Option.mem_toList.mpr isAfter, ofRow row passed⟩)

theorem call_flows_query (uuid : String) (db : Database) :
    call_flows.query ("nebula:cache:callflow:" ++ uuid) db.call_flows = get_callflow uuid db := by
  have same : ∀ row : CallFlow, ("nebula:cache:callflow:" ++ row.uuid =
      "nebula:cache:callflow:" ++ uuid) ↔ row.uuid = uuid := by
    intro row
    exact String.append_right_inj _
  simp only [call_flows, get_callflow, same]

def night : CallFlow := ⟨1, "f-1", "t-1", 0, "night"⟩

def day : CallFlow := { night with flow := "day" }

def flow_key : String := "nebula:cache:callflow:f-1"

def turned : RowChange CallFlow := ⟨[], some night, some day, []⟩

def looks_up : Action Choice (Event CallFlow) := .proc 0 ⟨flow_key, .rows⟩

/-- No result is put back that is neither current nor on the feed, and the monitor is up. -/
def followed {Row : Type} [CacheKey Row] [DecidableEq Row] (getters : Getters Row)
    (world : World (Shared Row) (Stage Row)) : Action Choice (Event Row) → Bool
  | .proc pid _ =>
    match world.procs pid with
    | .put_cache key result =>
      decide (result = getters.query key world.shared.rows) ||
        decide (key ∈ world.shared.feed.getD [])
    | _ => true
  | .outside (.commit _) => world.shared.feed.isSome
  | .outside .breaks => false
  | .outside _ => true

theorem followed_guarded {Row : Type} [CacheKey Row] [DecidableEq Row] (getters : Getters Row)
    (world : World (Shared Row) (Stage Row)) (action : Action Choice (Event Row))
    (check : followed getters world action = true) : Guarded getters world action := by
  cases action with
  | proc pid choice =>
    intro key result isPut
    dsimp only [followed] at check
    rw [isPut] at check
    rcases Bool.or_eq_true_iff.mp check with current | listed
    · have current : result = getters.query key world.shared.rows := of_decide_eq_true current
      exact Or.inl current
    · right
      have listed := of_decide_eq_true listed
      cases feed : world.shared.feed with
      | none =>
        rw [feed] at listed
        cases listed
      | some pending =>
        rw [feed] at listed
        exact ⟨pending, feed, listed⟩
  | outside event =>
    cases event with
    | commit change =>
      intro down
      rw [followed, down] at check
      cases check
    | breaks => cases check
    | delete key | reconnect | expire key => trivial

/-- The call flow is changed while it is looked up, and flushed after it was put back. -/
def flushed_later : List (Action Choice (Event CallFlow)) :=
  [looks_up, looks_up, looks_up, .outside (.commit turned), looks_up,
    .outside (.delete flow_key), .outside (.delete flow_key)]

/-- The call flow is put back after its change was flushed. -/
def flushed_before : List (Action Choice (Event CallFlow)) :=
  [looks_up, looks_up, looks_up, .outside (.commit turned), .outside (.delete flow_key),
    .outside (.delete flow_key), looks_up]

/-- The first getter has returned and nobody else has begun. -/
theorem settled_of_first {last : World (Shared CallFlow) (Stage CallFlow)}
    {actions : List (Action Choice (Event CallFlow))}
    (ran : runAll (caching call_flows) (start [night]) actions = some last)
    (first : ∀ action ∈ actions, ∀ pid choice, action = .proc pid choice → pid = 0)
    (delivered : last.shared.feed = some []) {result : Option CallFlow}
    (returned : last.procs 0 = .returned result) : Settled last := by
  constructor
  · rintro key ⟨pending, isFeed, listed⟩
    rw [delivered] at isFeed
    cases isFeed
    cases listed
  · intro pid
    by_cases same : pid = 0
    · subst same
      exact Or.inr ⟨result, returned⟩
    · left
      exact runAll_still actions
        (fun action listed choice isMove => same (first action listed pid choice isMove)) ran

theorem cache_fresh_flushed_later : ∃ last,
    runWhere (caching call_flows) (followed call_flows) (start [night]) flushed_later =
        some last ∧ last.shared.rows = [day] ∧ Fresh call_flows last.shared := by
  have ran : ∃ last, runWhere (caching call_flows) (followed call_flows) (start [night])
      flushed_later = some last ∧ last.shared.rows = [day] ∧ last.shared.feed = some [] ∧
        last.procs 0 = .returned (some night) := ⟨_, rfl, by decide, by decide, rfl⟩
  obtain ⟨last, took, turnedNow, delivered, returned⟩ := ran
  have settled : Settled last :=
    settled_of_first (runAll_of_runWhere flushed_later took)
      (by simp [flushed_later, looks_up]) delivered returned
  exact ⟨last, took, turnedNow, (cache_fresh call_flows [night] last
    (run_of_runWhere (followed_guarded call_flows) flushed_later took)).1 settled⟩

/-- A call flow that was put back late is found although it was changed. -/
theorem put_back_late : ¬ ∀ last, Run (caching call_flows) (fun _ _ => True) (start [night]) last →
    Settled last → Fresh call_flows last.shared := by
  intro fresh
  have ran : ∃ last, runAll (caching call_flows) (start [night]) flushed_before = some last ∧
      last.shared.rows = [day] ∧ last.shared.feed = some [] ∧
        last.procs 0 = .returned (some night) ∧ last.shared.cache flow_key = some (some night) :=
    ⟨_, rfl, by decide, by decide, rfl, by decide⟩
  obtain ⟨last, took, turnedNow, delivered, returned, cached⟩ := ran
  have settled : Settled last :=
    settled_of_first took (by simp [flushed_before, looks_up]) delivered returned
  have current := fresh last (run_of_runAll flushed_before took) settled flow_key _ cached
  unfold Current at current
  rw [turnedNow] at current
  revert current
  decide

end CacheFreshness
