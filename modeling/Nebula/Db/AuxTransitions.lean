import Nebula.Db.AuxTimeline
import Nebula.Db.CachedAbsence
import Nebula.Lib.Interleaving

/- The transitions of a user's schedule, which a status poll writes to the aux log when it finds
   that they have passed. The inserts are spawned, and the last entry that the poll decides from
   is cached until a change of the log is flushed, so a poll may not see what another has done. -/
namespace AuxTransitions
open AuxTimeline (Text)
open CachedAbsence (Fate)
open Interleaving

/-- An entry of the log of one user. -/
structure SipuserAuxLog where
  id : Int
  time : Int
  code : Text
  setBy : Text
  deriving DecidableEq

def SCHEDULE : Text := ['s', 'c', 'h', 'e', 'd', 'u', 'l', 'e']

/-- The instants at which the code of a user changes, with the codes from then on. -/
abbrev Timeline := List (Int × Text)

def Ascending (timeline : Timeline) : Prop := timeline.Pairwise fun one two => one.1 < two.1

/-- The day of an instant, and the timeline of its day as it is computed then, if the user has a
    schedule that can be read. -/
structure Schedule where
  day : Int → Int
  today : Int → Option Timeline
  ascending : ∀ now timeline, today now = some timeline → Ascending timeline

/-- The schedule of a list of records. -/
def Schedule.ofRecords (chrono : AuxTimeline.Chrono) (records : List AuxTimeline.AuxRecord) :
    Schedule where
  day := AuxTimeline.date chrono
  today now := some (AuxTimeline.formatAuxRecords chrono now records)
  ascending := by
    rintro now timeline ⟨⟩
    have times := @AuxTimeline.times_ascending chrono now records
    rw [← AuxTimeline.formatAuxRecords_times] at times
    exact List.pairwise_map.mp times

section Model

/-- What a call is answered, with the log, the timeline and the time it is decided at. -/
structure Answer where
  log : List SipuserAuxLog
  timeline : Timeline
  now : Int
  result : Option SipuserAuxLog

/-- The log, the cached last entry, the inserts that are still to be made, the clock, and the
    answers so far, which are no part of the code. -/
structure Shared where
  log : List SipuserAuxLog
  cache : Option (Option SipuserAuxLog)
  spawned : List (Int × Text)
  clock : Int
  answers : List Answer

inductive Stage where
  | idle
  | getCache
  | read
  | putCache (last : Option SipuserAuxLog)
  | schedule (last : Option SipuserAuxLog)
  | decide (last : Option SipuserAuxLog) (timeline : Option Timeline)
  | returned (result : Option SipuserAuxLog)

/-- Whether Redis answers, what becomes of the query, the row it finds, when the timeline that is
    cached for the day was computed, and which of the spawned inserts will be made. -/
structure Choice where
  redis : Bool
  fate : Fate
  row : Option SipuserAuxLog
  computed : Int
  inserted : Int → Bool

/-- The entry lies before the instant, if there is one. -/
def Before (last : Option SipuserAuxLog) (time : Int) : Prop := ∀ entry ∈ last, entry.time < time

instance (last : Option SipuserAuxLog) (time : Int) : Decidable (Before last time) :=
  inferInstanceAs (Decidable (∀ entry ∈ last, entry.time < time))

/-- An entry of the log with the latest time, and none of an empty log. -/
def IsLast (log : List SipuserAuxLog) : Option SipuserAuxLog → Prop
  | none => log = []
  | some last => last ∈ log ∧ ∀ entry ∈ log, entry.time ≤ last.time

instance (log : List SipuserAuxLog) : ∀ last, Decidable (IsLast log last)
  | none => inferInstanceAs (Decidable (log = []))
  | some last => inferInstanceAs (Decidable (last ∈ log ∧ ∀ entry ∈ log, entry.time ≤ last.time))

/-- The loop of a call spawns an insert for each of these. -/
def passed (last : Option SipuserAuxLog) (timeline : Timeline) (now : Int) : Timeline :=
  timeline.filter fun boundary => decide (boundary.1 ≤ now ∧ Before last boundary.1)

/-- The last boundary that the loop remembers, or else the last entry. -/
def currentAuxCode (last : Option SipuserAuxLog) (timeline : Timeline) (now : Int) :
    Option SipuserAuxLog :=
  match (passed last timeline now).getLast? with
  | some (time, code) => some ⟨0, time, code, SCHEDULE⟩
  | none => last

def decided (choice : Choice) (last : Option SipuserAuxLog) (timeline : Timeline) (shared : Shared) :
    Shared × Stage :=
  let result := currentAuxCode last timeline shared.clock
  ({ shared with
      spawned := shared.spawned ++
        (passed last timeline shared.clock).filter fun boundary => choice.inserted boundary.1
      answers := ⟨shared.log, timeline, shared.clock, result⟩ :: shared.answers },
    .returned result)

def step (schedule : Schedule) (_pid : Nat) (choice : Choice) (shared : Shared) :
    Stage → Option (Shared × Stage)
  | .idle => some (shared, .getCache)
  | .getCache =>
    match shared.cache, choice.redis with
    | some last, true => some (shared, .schedule last)
    | _, _ => some (shared, .read)
  | .read =>
    match choice.fate with
    | .answered => if IsLast shared.log choice.row then some (shared, .putCache choice.row) else none
    | .noConnection | .queryError => some (shared, .putCache none)
    | .lost => some (shared, .schedule none)
  | .putCache last =>
    some ({ shared with cache := if choice.redis then some last else shared.cache }, .schedule last)
  | .schedule last =>
    if choice.computed ≤ shared.clock ∧ schedule.day choice.computed = schedule.day shared.clock then
      some (shared, .decide last (schedule.today choice.computed))
    else none
  | .decide last timeline => some (decided choice last (timeline.getD []) shared)
  | .returned _ => none

/-- A spawned insert is made, an entry is set by hand, the cached entry is flushed or expires,
    time goes on. -/
inductive Event where
  | insert (boundary : Int × Text) (id : Int)
  | set (entry : SipuserAuxLog)
  | flush
  | tick (later : Int)

def outside (event : Event) (shared : Shared) : Option Shared :=
  match event with
  | .insert boundary id =>
    if boundary ∈ shared.spawned then
      some { shared with
        log := shared.log ++ [⟨id, boundary.1, boundary.2, SCHEDULE⟩]
        spawned := shared.spawned.erase boundary }
    else none
  | .set entry =>
    if entry.setBy = SCHEDULE then none else some { shared with log := shared.log ++ [entry] }
  | .flush => some { shared with cache := none }
  | .tick later => if shared.clock ≤ later then some { shared with clock := later } else none

def polling (schedule : Schedule) : System Shared Stage Choice Event where
  step := step schedule
  outside := outside

def start (log : List SipuserAuxLog) (clock : Int) : World Shared Stage :=
  ⟨⟨log, none, [], clock, []⟩, fun _ => .idle⟩

end Model

section Specification

/-- The times of the entries that a schedule has set. -/
def scheduled (log : List SipuserAuxLog) : List Int :=
  (log.filter fun entry => decide (entry.setBy = SCHEDULE)).map SipuserAuxLog.time

/-- The latest boundary after the last entry that has passed, or the last entry if there is no
    such boundary. -/
def Answer.Right (answer : Answer) : Prop :=
  ∃ last, IsLast answer.log last ∧
    ((∃ boundary ∈ answer.timeline, boundary.1 ≤ answer.now ∧ Before last boundary.1 ∧
        (∀ other ∈ answer.timeline, other.1 ≤ answer.now → Before last other.1 →
          other.1 ≤ boundary.1) ∧
        answer.result = some ⟨0, boundary.1, boundary.2, SCHEDULE⟩) ∨
      ((∀ boundary ∈ answer.timeline, boundary.1 ≤ answer.now → ¬ Before last boundary.1) ∧
        answer.result = last))

/-- None of the boundaries that the call is about to have inserted is in the log already, or
    about to be. -/
def Unlogged (shared : Shared) (choice : Choice) (last : Option SipuserAuxLog)
    (timeline : Timeline) : Prop :=
  ∀ boundary ∈ passed last timeline shared.clock, choice.inserted boundary.1 = true →
    boundary.1 ∉ scheduled shared.log ∧ boundary.1 ∉ shared.spawned.map Prod.fst

/-- The call has the last entry of the log, or a boundary has passed after all entries. -/
def UpToDate (shared : Shared) (last : Option SipuserAuxLog) (timeline : Timeline) : Prop :=
  IsLast shared.log last ∨
    ∃ boundary ∈ timeline, boundary.1 ≤ shared.clock ∧ ∀ entry ∈ shared.log, entry.time < boundary.1

def Guarded : Guard Shared Stage Choice Event
  | world, .proc pid choice => ∀ last timeline, world.procs pid = .decide last timeline →
      Unlogged world.shared choice last (timeline.getD []) ∧
        UpToDate world.shared last (timeline.getD [])
  | _, .outside _ => True

end Specification

section Decision

theorem exists_isLast (log : List SipuserAuxLog) : ∃ last, IsLast log last := by
  induction log with
  | nil => exact ⟨none, rfl⟩
  | cons entry rest ih =>
    obtain ⟨last, isLast⟩ := ih
    cases last with
    | none =>
      have empty : rest = [] := isLast
      subst empty
      exact ⟨some entry, List.mem_cons_self, by simp⟩
    | some last =>
      obtain ⟨member, latest⟩ := isLast
      by_cases newer : last.time ≤ entry.time
      · refine ⟨some entry, List.mem_cons_self, fun other inside => ?_⟩
        rcases List.mem_cons.mp inside with rfl | later
        · exact Int.le_refl _
        · exact Int.le_trans (latest other later) newer
      · refine ⟨some last, List.mem_cons_of_mem _ member, fun other inside => ?_⟩
        rcases List.mem_cons.mp inside with rfl | later
        · omega
        · exact latest other later

theorem mem_passed {last : Option SipuserAuxLog} {timeline : Timeline} {now : Int}
    {boundary : Int × Text} : boundary ∈ passed last timeline now ↔
      boundary ∈ timeline ∧ boundary.1 ≤ now ∧ Before last boundary.1 := by
  unfold passed
  rw [List.mem_filter, decide_eq_true_eq]

theorem passed_ascending {last : Option SipuserAuxLog} {timeline : Timeline} {now : Int}
    (ascending : Ascending timeline) : Ascending (passed last timeline now) :=
  List.Pairwise.filter _ ascending

/-- In a timeline nothing lies after its last boundary. -/
theorem le_getLast {timeline : Timeline} (ascending : Ascending timeline) {final : Int × Text}
    (isFinal : timeline.getLast? = some final) : ∀ boundary ∈ timeline, boundary.1 ≤ final.1 := by
  intro boundary member
  obtain ⟨front, rfl⟩ := List.getLast?_eq_some_iff.mp isFinal
  rcases List.mem_append.mp member with inside | last
  · have less := (List.pairwise_append.mp ascending).2.2 boundary inside final
      (List.mem_singleton_self _)
    omega
  · rw [List.mem_singleton.mp last]

theorem current_of_last {last : Option SipuserAuxLog} {timeline : Timeline} {now : Int}
    {final : Int × Text} (isFinal : (passed last timeline now).getLast? = some final) :
    currentAuxCode last timeline now = some ⟨0, final.1, final.2, SCHEDULE⟩ := by
  unfold currentAuxCode
  rw [isFinal]

theorem current_of_none {last : Option SipuserAuxLog} {timeline : Timeline} {now : Int}
    (none_ : passed last timeline now = []) : currentAuxCode last timeline now = last := by
  unfold currentAuxCode
  rw [none_]
  rfl

/-- A call that is up to date answers right. -/
theorem current_right {log : List SipuserAuxLog} {last : Option SipuserAuxLog} {timeline : Timeline}
    {now : Int} (ascending : Ascending timeline) (known : ∀ entry ∈ last, entry ∈ log)
    (upToDate : IsLast log last ∨
      ∃ boundary ∈ timeline, boundary.1 ≤ now ∧ ∀ entry ∈ log, entry.time < boundary.1) :
    (Answer.mk log timeline now (currentAuxCode last timeline now)).Right := by
  rcases upToDate with isLast | ⟨boundary, member, reached, after⟩
  · refine ⟨last, isLast, ?_⟩
    cases isFinal : (passed last timeline now).getLast? with
    | none =>
      have empty := List.getLast?_eq_none_iff.mp isFinal
      refine Or.inr ⟨fun other inside reached before => ?_, current_of_none empty⟩
      have listed := mem_passed.mpr ⟨inside, reached, before⟩
      rw [empty] at listed
      cases listed
    | some final =>
      obtain ⟨inside, reached, before⟩ := mem_passed.mp (List.mem_of_getLast? isFinal)
      refine Or.inl ⟨final, inside, reached, before, fun other listed otherReached otherBefore => ?_,
        current_of_last isFinal⟩
      exact le_getLast (passed_ascending ascending) isFinal other
        (mem_passed.mpr ⟨listed, otherReached, otherBefore⟩)
  · obtain ⟨real, isReal⟩ := exists_isLast log
    have beforeLast : Before last boundary.1 := fun entry isEntry => after entry (known entry isEntry)
    have listed := mem_passed.mpr ⟨member, reached, beforeLast⟩
    have nonempty : passed last timeline now ≠ [] := List.ne_nil_of_mem listed
    obtain ⟨final, isFinal⟩ := Option.isSome_iff_exists.mp (List.getLast?_isSome.mpr nonempty)
    have latest := le_getLast (passed_ascending ascending) isFinal
    obtain ⟨inside, finalReached, _⟩ := mem_passed.mp (List.mem_of_getLast? isFinal)
    have notBefore := latest boundary listed
    refine ⟨real, isReal, Or.inl ⟨final, inside, finalReached, ?_, ?_, current_of_last isFinal⟩⟩
    · rintro entry rfl
      have := after entry isReal.1
      omega
    · intro other otherMember otherReached _
      by_cases early : other.1 ≤ boundary.1
      · exact Int.le_trans early notBefore
      · refine latest other (mem_passed.mpr ⟨otherMember, otherReached, fun entry isEntry => ?_⟩)
        have := beforeLast entry isEntry
        omega

end Decision

section Polls
variable {schedule : Schedule}

/-- The entry that a call at this place has found. -/
def Stage.Carries : Stage → SipuserAuxLog → Prop
  | .putCache last, entry | .schedule last, entry | .decide last _, entry => last = some entry
  | _, _ => False

/-- What holds throughout: no boundary is logged or about to be logged twice, answers are right,
    and what is cached or carried was found in the log. -/
structure Kept (world : World Shared Stage) : Prop where
  once : (scheduled world.shared.log ++ world.shared.spawned.map Prod.fst).Nodup
  right : ∀ answer ∈ world.shared.answers, answer.Right
  cached : ∀ entry, world.shared.cache = some (some entry) → entry ∈ world.shared.log
  carried : ∀ pid entry, (world.procs pid).Carries entry → entry ∈ world.shared.log
  ascending : ∀ pid last timeline, world.procs pid = .decide last (some timeline) →
    Ascending timeline

theorem start_kept {log : List SipuserAuxLog} (once : (scheduled log).Nodup) (clock : Int) :
    Kept (start log clock) := by
  constructor
  · rw [show (start log clock).shared.spawned = [] from rfl, List.map_nil, List.append_nil]
    exact once
  · rintro answer ⟨⟩
  · rintro entry ⟨⟩
  · rintro pid entry ⟨⟩
  · rintro pid last timeline ⟨⟩

/-- A step that only moves a call, to a place where what it carries was found in the log. -/
theorem moved_kept {world : World Shared Stage} (kept : Kept world) (pid : Nat) {stage : Stage}
    (cache : Option (Option SipuserAuxLog))
    (cached : ∀ entry, cache = some (some entry) → entry ∈ world.shared.log)
    (carried : ∀ entry, stage.Carries entry → entry ∈ world.shared.log)
    (ascending : ∀ last timeline, stage = .decide last (some timeline) → Ascending timeline) :
    Kept (world.moved pid { world.shared with cache := cache } stage) := by
  refine ⟨kept.once, kept.right, cached, fun other entry => ?_, fun other last timeline => ?_⟩
  · by_cases same : other = pid
    · subst same
      rw [moved_same]
      exact carried entry
    · rw [moved_other _ _ _ same]
      exact kept.carried other entry
  · by_cases same : other = pid
    · subst same
      rw [moved_same]
      exact ascending last timeline
    · rw [moved_other _ _ _ same]
      exact kept.ascending other last timeline

/-- What a guarded call spawns is neither in the log nor about to be. -/
theorem spawned_once {shared : Shared} {choice : Choice} {last : Option SipuserAuxLog}
    {timeline : Timeline} (once : (scheduled shared.log ++ shared.spawned.map Prod.fst).Nodup)
    (ascending : Ascending timeline) (unlogged : Unlogged shared choice last timeline) :
    (scheduled shared.log ++ (shared.spawned ++ (passed last timeline shared.clock).filter
      fun boundary => choice.inserted boundary.1).map Prod.fst).Nodup := by
  rw [List.map_append, ← List.append_assoc]
  refine List.nodup_append'.mpr ⟨once, ?_, ?_⟩
  · have strictly := (@passed_ascending last timeline shared.clock ascending).filter
      fun boundary => choice.inserted boundary.1
    refine List.pairwise_map.mpr (strictly.imp fun less same => ?_)
    omega
  · intro time logged fresh
    obtain ⟨boundary, member, rfl⟩ := List.mem_map.mp fresh
    obtain ⟨listed, inserted⟩ := List.mem_filter.mp member
    obtain ⟨notLogged, notSpawned⟩ := unlogged boundary listed inserted
    rcases List.mem_append.mp logged with old | pending
    · exact notLogged old
    · exact notSpawned pending

theorem decided_kept {world : World Shared Stage} (kept : Kept world) {pid : Nat} {choice : Choice}
    {last : Option SipuserAuxLog} {timeline : Option Timeline}
    (decides : world.procs pid = .decide last timeline)
    (unlogged : Unlogged world.shared choice last (timeline.getD []))
    (upToDate : UpToDate world.shared last (timeline.getD [])) :
    Kept (world.moved pid (decided choice last (timeline.getD []) world.shared).1
      (decided choice last (timeline.getD []) world.shared).2) := by
  have ascending : Ascending (timeline.getD []) := by
    cases isTimeline : timeline with
    | none => exact List.Pairwise.nil
    | some own => exact kept.ascending pid last own (by rw [decides, isTimeline])
  have known : ∀ entry ∈ last, entry ∈ world.shared.log := by
    intro entry isEntry
    refine kept.carried pid entry ?_
    rw [decides]
    exact isEntry
  refine ⟨spawned_once kept.once ascending unlogged, ?_, kept.cached, fun other entry => ?_,
    fun other carried own => ?_⟩
  · intro answer member
    rcases List.mem_cons.mp member with rfl | older
    · exact current_right ascending known upToDate
    · exact kept.right answer older
  · by_cases same : other = pid
    · subst same
      rw [moved_same]
      exact fun carries => carries.elim
    · rw [moved_other _ _ _ same]
      exact kept.carried other entry
  · by_cases same : other = pid
    · subst same
      rw [moved_same]
      rintro ⟨⟩
    · rw [moved_other _ _ _ same]
      exact kept.ascending other carried own

/-- The row that a query finds is in the log. -/
theorem isLast_mem {log : List SipuserAuxLog} {last : Option SipuserAuxLog} (isLast : IsLast log last) :
    ∀ entry, last = some entry → entry ∈ log := by
  rintro entry rfl
  exact isLast.1

theorem step_kept {world : World Shared Stage} (kept : Kept world) {pid : Nat} {choice : Choice}
    {shared : Shared} {stage : Stage} (guarded : Guarded world (.proc pid choice))
    (stepped : step schedule pid choice world.shared (world.procs pid) = some (shared, stage)) :
    Kept (world.moved pid shared stage) := by
  have carried := kept.carried pid
  cases place : world.procs pid with
  | idle =>
    rw [place] at stepped
    cases stepped
    exact moved_kept kept pid _ kept.cached (fun _ carries => carries.elim) (by rintro _ _ ⟨⟩)
  | getCache =>
    rw [place] at stepped
    dsimp only [step] at stepped
    split at stepped
    · rename_i last cached _
      cases stepped
      refine moved_kept kept pid _ kept.cached (fun entry carries => ?_) (by rintro _ _ ⟨⟩)
      exact kept.cached entry (cached.trans (congrArg some carries))
    · cases stepped
      exact moved_kept kept pid _ kept.cached (fun _ carries => carries.elim) (by rintro _ _ ⟨⟩)
  | read =>
    rw [place] at stepped
    dsimp only [step] at stepped
    split at stepped
    · obtain ⟨isLast, same⟩ := Option.ite_none_right_eq_some.mp stepped
      cases same
      exact moved_kept kept pid _ kept.cached (fun entry carries => isLast_mem isLast entry carries)
        (by rintro _ _ ⟨⟩)
    · cases stepped
      exact moved_kept kept pid _ kept.cached (by rintro _ ⟨⟩) (by rintro _ _ ⟨⟩)
    · cases stepped
      exact moved_kept kept pid _ kept.cached (by rintro _ ⟨⟩) (by rintro _ _ ⟨⟩)
    · cases stepped
      exact moved_kept kept pid _ kept.cached (by rintro _ ⟨⟩) (by rintro _ _ ⟨⟩)
  | putCache last =>
    rw [place] at stepped carried
    cases stepped
    refine moved_kept kept pid _ (fun entry cached => ?_) carried (by rintro _ _ ⟨⟩)
    by_cases answers : choice.redis = true
    · rw [if_pos answers] at cached
      exact carried entry (Option.some.inj cached)
    · rw [if_neg answers] at cached
      exact kept.cached entry cached
  | schedule last =>
    rw [place] at stepped carried
    obtain ⟨_, same⟩ := Option.ite_none_right_eq_some.mp stepped
    cases same
    refine moved_kept kept pid _ kept.cached carried fun other timeline same => ?_
    obtain ⟨_, today⟩ := Stage.decide.inj same
    exact schedule.ascending choice.computed timeline today
  | decide last timeline =>
    rw [place] at stepped
    cases stepped
    obtain ⟨unlogged, upToDate⟩ := guarded last timeline place
    exact decided_kept kept place unlogged upToDate
  | returned result =>
    rw [place] at stepped
    cases stepped

theorem scheduled_append (log : List SipuserAuxLog) (entry : SipuserAuxLog) :
    scheduled (log ++ [entry]) =
      scheduled log ++ if entry.setBy = SCHEDULE then [entry.time] else [] := by
  unfold scheduled
  rw [List.filter_append, List.map_append]
  congr 1
  by_cases own : entry.setBy = SCHEDULE
  · simp [own]
  · simp [own]

/-- An insert that is made moves a boundary from those to come to the log. -/
theorem inserted_once {log : List SipuserAuxLog} {spawned : List (Int × Text)}
    (once : (scheduled log ++ spawned.map Prod.fst).Nodup) {boundary : Int × Text}
    (pending : boundary ∈ spawned) (id : Int) :
    (scheduled (log ++ [⟨id, boundary.1, boundary.2, SCHEDULE⟩]) ++
      (spawned.erase boundary).map Prod.fst).Nodup := by
  rw [scheduled_append, if_pos rfl, List.append_assoc]
  have moved : (spawned.map Prod.fst).Perm ([boundary.1] ++ (spawned.erase boundary).map Prod.fst) :=
    (List.perm_cons_erase pending).map Prod.fst
  exact (moved.append_left (scheduled log)).nodup_iff.mp once

/-- An entry more in the log, where the boundaries stay apart. -/
theorem logged_kept {world : World Shared Stage} (kept : Kept world) (entry : SipuserAuxLog)
    {spawned : List (Int × Text)}
    (once : (scheduled (world.shared.log ++ [entry]) ++ spawned.map Prod.fst).Nodup) :
    Kept ⟨{ world.shared with log := world.shared.log ++ [entry], spawned := spawned },
      world.procs⟩ :=
  ⟨once, kept.right, fun other cached => List.mem_append_left _ (kept.cached other cached),
    fun pid other carries => List.mem_append_left _ (kept.carried pid other carries), kept.ascending⟩

theorem outside_kept {world : World Shared Stage} (kept : Kept world) {event : Event}
    {shared : Shared} (happened : outside event world.shared = some shared) :
    Kept ⟨shared, world.procs⟩ := by
  cases event with
  | insert boundary id =>
    obtain ⟨pending, same⟩ := Option.ite_none_right_eq_some.mp happened
    cases same
    exact logged_kept kept _ (inserted_once kept.once pending id)
  | set entry =>
    obtain ⟨byHand, same⟩ := Option.ite_none_left_eq_some.mp happened
    cases same
    refine logged_kept kept entry ?_
    rw [scheduled_append, if_neg byHand, List.append_nil]
    exact kept.once
  | flush =>
    cases happened
    exact ⟨kept.once, kept.right, by rintro entry ⟨⟩, kept.carried, kept.ascending⟩
  | tick later =>
    obtain ⟨_, same⟩ := Option.ite_none_right_eq_some.mp happened
    cases same
    exact ⟨kept.once, kept.right, kept.cached, kept.carried, kept.ascending⟩

/-- In every run of guarded polls each boundary is logged at most once by the schedule, and each
    poll is answered the latest boundary since the last entry, or that entry. -/
theorem transitions_logged_once (schedule : Schedule) (log : List SipuserAuxLog)
    (once : (scheduled log).Nodup) (clock : Int) (last : World Shared Stage)
    (run : Run (polling schedule) Guarded (start log clock) last) :
    (scheduled last.shared.log).Nodup ∧ ∀ answer ∈ last.shared.answers, answer.Right := by
  have kept : Kept last := by
    apply run_keeps Kept (start_kept once clock) _ run
    intro world action after kept guarded acted
    rcases act_cases acted with ⟨pid, choice, shared, stage, rfl, stepped, rfl⟩ |
      ⟨event, shared, rfl, happened, rfl⟩
    · exact step_kept kept guarded stepped
    · exact outside_kept kept happened
  exact ⟨(List.nodup_append'.mp kept.once).1, kept.right⟩

end Polls

instance (shared : Shared) (choice : Choice) (last : Option SipuserAuxLog) (timeline : Timeline) :
    Decidable (Unlogged shared choice last timeline) :=
  inferInstanceAs (Decidable (∀ boundary ∈ passed last timeline shared.clock,
    choice.inserted boundary.1 = true →
      boundary.1 ∉ scheduled shared.log ∧ boundary.1 ∉ shared.spawned.map Prod.fst))

instance (shared : Shared) (last : Option SipuserAuxLog) (timeline : Timeline) :
    Decidable (UpToDate shared last timeline) :=
  inferInstanceAs (Decidable (IsLast shared.log last ∨ ∃ boundary ∈ timeline,
    boundary.1 ≤ shared.clock ∧ ∀ entry ∈ shared.log, entry.time < boundary.1))

/-- Checks the guard of a poll that decides. -/
def guards (world : World Shared Stage) : Action Choice Event → Bool
  | .proc pid choice =>
    match world.procs pid with
    | .decide last timeline =>
      decide (Unlogged world.shared choice last (timeline.getD [])) &&
        decide (UpToDate world.shared last (timeline.getD []))
    | _ => true
  | .outside _ => true

theorem guards_sound (world : World Shared Stage) (action : Action Choice Event)
    (check : guards world action = true) : Guarded world action := by
  cases action with
  | outside event => trivial
  | proc pid choice =>
    intro last timeline decides
    dsimp only [guards] at check
    rw [decides] at check
    obtain ⟨unlogged, upToDate⟩ := Bool.and_eq_true_iff.mp check
    exact ⟨of_decide_eq_true unlogged, of_decide_eq_true upToDate⟩

/-- Lunch from 100 to 200, on the one day there is. -/
def lunchBreak : Schedule where
  day _ := 0
  today _ := some [(100, ['l', 'u', 'n', 'c', 'h']), (200, AuxTimeline.AVAILABLE)]
  ascending := by
    rintro now timeline ⟨⟩
    unfold Ascending
    decide

/-- A step of a poll of which everything answers and every insert is made. -/
def polls (pid : Nat) (row : Option SipuserAuxLog) : Action Choice Event :=
  .proc pid ⟨true, .answered, row, 100, fun _ => true⟩

def lunchEntry : SipuserAuxLog := ⟨1, 100, ['l', 'u', 'n', 'c', 'h'], SCHEDULE⟩

/-- A poll during the break, whose insert is made and flushed before the next one after it. -/
def twoPolls : List (Action Choice Event) :=
  List.replicate 6 (polls 0 none) ++
    [.outside (.insert (100, ['l', 'u', 'n', 'c', 'h']) 1), .outside .flush, .outside (.tick 250)] ++
    List.replicate 6 (polls 1 (some lunchEntry))

theorem twoPolls_logged_once : ∃ last, runWhere (polling lunchBreak) guards (start [] 150) twoPolls =
    some last ∧ last.shared.log = [lunchEntry] ∧ (scheduled last.shared.log).Nodup ∧
      ∀ answer ∈ last.shared.answers, answer.Right := by
  have ran : ∃ last, runWhere (polling lunchBreak) guards (start [] 150) twoPolls = some last ∧
      last.shared.log = [lunchEntry] := ⟨_, rfl, by decide⟩
  obtain ⟨last, took, logged⟩ := ran
  exact ⟨last, took, logged, transitions_logged_once lunchBreak [] List.nodup_nil 150 last
    (run_of_runWhere guards_sound twoPolls took)⟩

/-- A second poll before the insert of the first is made. -/
def pollsTogether : List (Action Choice Event) :=
  List.replicate 6 (polls 0 none) ++ List.replicate 4 (polls 1 none) ++
    [.outside (.insert (100, ['l', 'u', 'n', 'c', 'h']) 1),
      .outside (.insert (100, ['l', 'u', 'n', 'c', 'h']) 2)]

/-- Both polls have lunch logged. -/
theorem transition_logged_twice :
    ¬ ∀ schedule log clock last, (scheduled log).Nodup →
      Run (polling schedule) (fun _ _ => True) (start log clock) last →
        (scheduled last.shared.log).Nodup := by
  intro always
  have ran : ∃ last, runAll (polling lunchBreak) (start [] 150) pollsTogether = some last ∧
      scheduled last.shared.log = [100, 100] := ⟨_, rfl, by decide⟩
  obtain ⟨last, took, logged⟩ := ran
  have once := always lunchBreak [] 150 last List.nodup_nil (run_of_runAll pollsTogether took)
  rw [logged] at once
  revert once
  decide

end AuxTransitions
