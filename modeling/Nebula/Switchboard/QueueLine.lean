import Mathlib.Data.String.Basic
import Nebula.Lib.Expiring
import Nebula.Lib.Interleaving
import Nebula.Lib.ScoredSet

/- The line of the calls that wait in a queue: the calls themselves, the tasks that mark them as
   still in the queue, and those that take out the calls that are gone. -/
namespace QueueLine
open Interleaving

section Model

structure Call where
  channel : String
  max_waiting : ℕ

/-- What a caller leaves to a task of its own. -/
inductive Task where
  | keep_in_queue (channel : String)
  | check_calls
  deriving DecidableEq

/-- The keys of one queue and of the channels in it. -/
structure Shared where
  now : ℕ
  calls : IndexMap String ℕ
  check_lock : Expiring.Cell Unit
  still_in_queue : String → Expiring.Cell Unit
  hangup : String → Bool
  spawned : List Task

/-- A command may be carried out and still end in an error. -/
inductive Outcome where
  | done
  | lost
  | failed
  deriving DecidableEq

def Outcome.carriedOut : Outcome → Bool
  | .failed => false
  | _ => true

def Outcome.confirmed : Outcome → Bool
  | .done => true
  | _ => false

/-- The command that the task of add_call has come to. -/
inductive Keeping where
  | is_hangup
  | zrank
  | setex
  | sleep (since : ℕ)
  deriving DecidableEq

/-- The command that the task of position has come to, with the channels that are left. -/
inductive Checking where
  | setexnx
  | zrange
  | is_hangup (channel : String) (rest : List String)
  | still_in_queue (channel : String) (rest : List String)
  | hangup (channel : String) (rest : List String)
  | zrem (channel : String) (rest : List String)
  deriving DecidableEq

/-- A keeper remembers when it last marked its call. -/
inductive Stage where
  | idle
  | adding (score : ℕ)
  | added
  | asking (first : Bool)
  | waiting (position : ℕ)
  | sleeping
  | ringing
  | answered
  | picked_up
  | leaving
  | keeping (channel : String) (place : Keeping) (marked : Option ℕ)
  | checking (place : Checking)
  deriving DecidableEq

/-- How a second of waiting ends, unless the call is found hung up. -/
inductive Wake where
  | picked_up
  | over
  | waits

inductive Choice where
  | add_call
  | take (task : Task)
  | command (outcome : Outcome)
  | registered (somebody : Bool)
  | available (free : Bool)
  | hint (outcome : Outcome)
  | wake (result : Wake)
  | answer (outcome : Outcome)
  | again
  | finish
  | crash

inductive Outside where
  | tick
  | hangup (channel : String)

def Shared.spawn (task : Task) (shared : Shared) : Shared :=
  { shared with spawned := task :: shared.spawned }

def Shared.zadd (channel : String) (score : ℕ) (shared : Shared) : Shared :=
  { shared with calls := shared.calls.insert channel score }

def Shared.zrem (channel : String) (shared : Shared) : Shared :=
  { shared with calls := shared.calls.erase channel }

def Shared.hang (channel : String) (shared : Shared) : Shared :=
  { shared with hangup := Function.update shared.hangup channel true }

/-- The key of a channel that is still in the queue lasts 15 seconds. -/
def Shared.mark (channel : String) (shared : Shared) : Shared :=
  { shared with
    still_in_queue := Function.update shared.still_in_queue channel
      (Expiring.writeUntil (shared.now + 15) ()) }

def Shared.lock (shared : Shared) : Shared :=
  { shared with check_lock := Expiring.writeUntil (shared.now + 1) () }

def Shared.hasMark (channel : String) (shared : Shared) : Bool :=
  (Expiring.read shared.now (shared.still_in_queue channel)).isSome

variable (call : Call) (shared : Shared)

/-- The score is the second that the clock showed before the command. -/
def add_call (score : ℕ) (outcome : Outcome) : Shared × Stage :=
  let written := if outcome.carriedOut then shared.zadd call.channel score else shared
  if outcome.confirmed then (written.spawn (.keep_in_queue call.channel), .added)
  else (written, .idle)

def remove_call (outcome : Outcome) : Shared :=
  if outcome.carriedOut then shared.zrem call.channel else shared

/-- What query_position answers, if anything. -/
def query_position (outcome : Outcome) : Option ℕ :=
  if outcome.confirmed then ScoredSet.rank shared.calls call.channel else none

/-- A position leaves a check of all calls behind; the first one is compared with max_waiting. -/
def position (first : Bool) (outcome : Outcome) : Shared × Stage :=
  match query_position call shared outcome with
  | none => (shared, .leaving)
  | some position =>
    (shared.spawn .check_calls,
      if first && 0 < call.max_waiting && call.max_waiting ≤ position then .leaving
      else .waiting position)

/-- The position that is read out while the call waits. -/
def play_hint (outcome : Outcome) : Shared :=
  match query_position call shared outcome with
  | none => shared
  | some _ => shared.spawn .check_calls

def Task.start : Task → Stage
  | .keep_in_queue channel => .keeping channel .is_hangup none
  | .check_calls => .checking .setexnx

/-- The caller: add_call, wait_position, the rounds of run, remove_call. -/
def caller : Choice → Stage → Option (Shared × Stage)
  | .add_call, .idle => some (shared, .adding shared.now)
  | .take task, .idle =>
    if task ∈ shared.spawned then
      some ({ shared with spawned := shared.spawned.erase task }, task.start)
    else none
  | .command outcome, .adding score => some (add_call call shared score outcome)
  | .registered somebody, .added => some (shared, if somebody then .asking true else .leaving)
  | .command outcome, .asking first => some (position call shared first outcome)
  | .available free, .waiting position =>
    some (shared, if 0 < position || !free then .sleeping else .ringing)
  | .hint outcome, .sleeping => some (play_hint call shared outcome, .sleeping)
  | .wake .picked_up, .sleeping => some (shared, .picked_up)
  | .wake .over, .sleeping => some (shared, .leaving)
  | .wake .waits, .sleeping =>
    some (shared, if shared.hangup call.channel then .leaving else .asking false)
  | .answer outcome, .ringing => some (remove_call call shared outcome, .answered)
  | .again, .ringing =>
    some (shared, if shared.hangup call.channel then .leaving else .ringing)
  | .finish, .ringing => some (shared, .leaving)
  | .finish, .answered => some (shared, .leaving)
  | .answer outcome, .picked_up => some (remove_call call shared outcome, .leaving)
  | .finish, .picked_up => some (shared, .leaving)
  | .command outcome, .leaving => some (remove_call call shared outcome, .idle)
  | _, _ => none

/-- The keeper of a channel, from one command to the next. -/
def keeper (channel : String) (outcome : Outcome) (marked : Option ℕ) : Keeping → Shared × Stage
  | .is_hangup =>
    (shared, if outcome.confirmed && !shared.hangup channel then .keeping channel .zrank marked
      else .idle)
  | .zrank =>
    (shared,
      if outcome.confirmed && (ScoredSet.rank shared.calls channel).isSome then
        .keeping channel .setex marked
      else .idle)
  | .setex =>
    if outcome.carriedOut then
      (shared.mark channel, .keeping channel (.sleep shared.now) (some shared.now))
    else (shared, .keeping channel (.sleep shared.now) marked)
  | .sleep since =>
    (shared, .keeping channel (if since + 10 ≤ shared.now then .is_hangup else .sleep since) marked)

/-- The check goes on with the next of the calls it has found. -/
def checkNext : List String → Stage
  | [] => .idle
  | channel :: rest => .checking (.is_hangup channel rest)

/-- The check of all calls; what cannot be asked counts as hung up and as not marked. -/
def checker (outcome : Outcome) : Checking → Shared × Stage
  | .setexnx =>
    if (Expiring.read shared.now shared.check_lock).isNone then
      (if outcome.carriedOut then shared.lock else shared,
        if outcome.confirmed then .checking .zrange else .idle)
    else (shared, .idle)
  | .zrange =>
    (shared, if outcome.confirmed then checkNext (ScoredSet.range shared.calls) else .idle)
  | .is_hangup channel rest =>
    (shared, .checking
      (if outcome.confirmed && !shared.hangup channel then .still_in_queue channel rest
      else .zrem channel rest))
  | .still_in_queue channel rest =>
    (shared, if outcome.confirmed && shared.hasMark channel then checkNext rest
      else .checking (.hangup channel rest))
  | .hangup channel rest =>
    (if outcome.carriedOut then shared.hang channel else shared, .checking (.zrem channel rest))
  | .zrem channel rest =>
    (if outcome.carriedOut then shared.zrem channel else shared, checkNext rest)

def step (calls : ℕ → Call) (pid : ℕ) (choice : Choice) (shared : Shared) :
    Stage → Option (Shared × Stage)
  | .keeping channel place marked =>
    match choice with
    | .command outcome => some (keeper shared channel outcome marked place)
    | .crash => some (shared, .idle)
    | _ => none
  | .checking place =>
    match choice with
    | .command outcome => some (checker shared outcome place)
    | .crash => some (shared, .idle)
    | _ => none
  | stage =>
    match choice with
    | .crash => some (shared, .idle)
    | _ => caller (calls pid) shared choice stage

def outside : Outside → Shared → Option Shared
  | .tick, shared => some { shared with now := shared.now + 1 }
  | .hangup channel, shared => some (shared.hang channel)

def queue (calls : ℕ → Call) : System Shared Stage Choice Outside where
  step := step calls
  outside := outside

def start : World Shared Stage where
  shared :=
    { now := 0
      calls := IndexMap.empty
      check_lock := none
      still_in_queue := fun _ => none
      hangup := fun _ => false
      spawned := [] }
  procs := fun _ => .idle

end Model

section Claimed
variable (lag : ℕ) (calls : ℕ → Call)

/-- Where a call has its place in the line. -/
def Stage.inLine : Stage → Bool
  | .added | .asking _ | .waiting _ | .sleeping | .ringing => true
  | _ => false

/-- Where a call has been found to be one of few enough. -/
def Stage.checked : Stage → Bool
  | .asking first => !first
  | .waiting _ | .sleeping | .ringing => true
  | _ => false

/-- Where a call has been found to be the first. -/
def Stage.through : Stage → Bool
  | .waiting position => position == 0
  | .ringing => true
  | _ => false

def InLine (world : World Shared Stage) (channel : String) : Prop :=
  ∃ pid, (calls pid).channel = channel ∧ (world.procs pid).inLine = true

/-- The channel that a check is about to hang up or to take out. -/
def Stage.against : Stage → Option String
  | .checking (.hangup channel _) | .checking (.zrem channel _) => some channel
  | _ => none

def Threatened (world : World Shared Stage) (channel : String) : Prop :=
  ∃ pid, (world.procs pid).against = some channel

/-- A keeper has yet to mark its call for the first time. -/
def Fresh (world : World Shared Stage) (channel : String) : Prop :=
  .keep_in_queue channel ∈ world.shared.spawned ∨
    ∃ pid place, world.procs pid = .keeping channel place none

/-- What the line rests on: a call is written into it within `lag` seconds of the second it is
    written with, and while no check is about to take it out from before; the commands about a
    call in line succeed and its keeper goes on, less than 5 seconds late; and no check looks for
    a mark before the first one. -/
structure OnTime (world : World Shared Stage) (action : Action Choice Outside) : Prop where
  prompt : ∀ pid score outcome, action = .proc pid (.command outcome) →
    world.procs pid = .adding score → world.shared.now ≤ score + lag
  uncontested : ∀ pid score outcome, action = .proc pid (.command outcome) →
    world.procs pid = .adding score → ¬Threatened world (calls pid).channel
  kept : ∀ pid choice channel place marked, action = .proc pid choice →
    world.procs pid = .keeping channel place marked → InLine calls world channel →
      choice = .command .done
  asked_hangup : ∀ pid outcome channel rest, action = .proc pid (.command outcome) →
    world.procs pid = .checking (.is_hangup channel rest) → InLine calls world channel →
      outcome = .done
  asked_mark : ∀ pid outcome channel rest, action = .proc pid (.command outcome) →
    world.procs pid = .checking (.still_in_queue channel rest) → InLine calls world channel →
      outcome = .done ∧ ¬Fresh world channel
  awake : action = .outside .tick → ∀ pid channel place marked,
    world.procs pid = .keeping channel place (some marked) → world.shared.now + 1 < marked + 15

/-- How many calls in line joined more than `lag` seconds before a second. -/
def aheadOf (shared : Shared) (score : ℕ) : ℕ :=
  shared.calls.entries.countP fun entry => decide (entry.2 + lag < score)

structure Sound (world : World Shared Stage) : Prop where
  spared : ∀ pid channel, (world.procs pid).against = some channel →
    world.shared.hangup channel = true ∨ ¬InLine calls world channel
  listed : ∀ pid, (world.procs pid).inLine = true →
    world.shared.hangup (calls pid).channel = false →
      ∃ score, world.shared.calls.entries.lookup (calls pid).channel = some score
  in_turn : ∀ pid score, world.procs pid = .ringing →
    world.shared.calls.entries.lookup (calls pid).channel = some score →
      ∀ entry ∈ world.shared.calls.entries, score ≤ entry.2 + lag
  apart : ∀ pid other, world.procs pid = .ringing → world.procs other = .ringing →
    world.shared.hangup (calls pid).channel = false →
    world.shared.hangup (calls other).channel = false →
      ∃ score second, world.shared.calls.entries.lookup (calls pid).channel = some score ∧
        world.shared.calls.entries.lookup (calls other).channel = some second ∧
        score ≤ second + lag ∧ second ≤ score + lag
  limited : ∀ pid score, (world.procs pid).checked = true → 0 < (calls pid).max_waiting →
    world.shared.calls.entries.lookup (calls pid).channel = some score →
      aheadOf lag world.shared score < (calls pid).max_waiting

end Claimed

section Invariant
variable (lag : ℕ) (calls : ℕ → Call)

/-- The mark that a keeper has set is there. -/
structure Marked (now : ℕ) (cell : Expiring.Cell Unit) (marked : ℕ) : Prop where
  set : marked ≤ now
  lasts : now < marked + 15
  found : ∃ ends, cell = Expiring.writeUntil ends () ∧ marked + 15 ≤ ends

def Tended (world : World Shared Stage) (channel : String) : Prop :=
  .keep_in_queue channel ∈ world.shared.spawned ∨
    ∃ pid place marked, world.procs pid = .keeping channel place marked

def InTurn (shared : Shared) (channel : String) : Prop :=
  ∀ score, shared.calls.entries.lookup channel = some score →
    ∀ entry ∈ shared.calls.entries, score ≤ entry.2 + lag

def FewAhead (shared : Shared) (call : Call) : Prop :=
  ∀ score, 0 < call.max_waiting → shared.calls.entries.lookup call.channel = some score →
    aheadOf lag shared score < call.max_waiting

/-- What is known of the line where a process stands. -/
structure Known (shared : Shared) (call : Call) (stage : Stage) : Prop where
  read : ∀ score, stage = .adding score → score ≤ shared.now
  listed : stage.inLine = true → shared.hangup call.channel = false →
    ∃ score, shared.calls.entries.lookup call.channel = some score
  marked : ∀ channel place marked, stage = .keeping channel place (some marked) →
    Marked shared.now (shared.still_in_queue channel) marked
  turn : stage.through = true → InTurn lag shared call.channel
  limited : stage.checked = true → FewAhead lag shared call

structure Kept (world : World Shared Stage) : Prop where
  past : ∀ entry ∈ world.shared.calls.entries, entry.2 ≤ world.shared.now
  known : ∀ pid, Known lag world.shared (calls pid) (world.procs pid)
  tended : ∀ pid, (world.procs pid).inLine = true →
    world.shared.hangup (calls pid).channel = false → Tended world (calls pid).channel
  spared : ∀ pid channel, (world.procs pid).against = some channel →
    world.shared.hangup channel = true ∨ ¬InLine calls world channel

end Invariant

section Effects
variable {lag : ℕ} {calls : ℕ → Call} {shared after : Shared} {procs : ℕ → Stage}

/-- Nothing is lost by what leaves the line as it is. -/
theorem effect_kept (kept : Kept lag calls ⟨shared, procs⟩) (same : after.calls = shared.calls)
    (now : after.now = shared.now)
    (hangup : ∀ channel, shared.hangup channel = true → after.hangup channel = true)
    (spawned : ∀ task ∈ shared.spawned, task ∈ after.spawned)
    (marked : ∀ channel moment, Marked shared.now (shared.still_in_queue channel) moment →
      Marked after.now (after.still_in_queue channel) moment) :
    Kept lag calls ⟨after, procs⟩ := by
  have standing : ∀ channel, after.hangup channel = false → shared.hangup channel = false := by
    intro channel not
    cases before : shared.hangup channel with
    | false => rfl
    | true => exact absurd (hangup channel before) (by simp [not])
  constructor
  · simpa only [same, now] using kept.past
  · intro pid
    obtain ⟨read, listed, noted, turn, limited⟩ := kept.known pid
    constructor
    · simpa only [now] using read
    · intro line not
      simpa only [same] using listed line (standing _ not)
    · exact fun channel place moment keeping => marked _ _ (noted channel place moment keeping)
    · simpa only [InTurn, same] using turn
    · simpa only [FewAhead, aheadOf, same] using limited
  · intro pid line not
    exact (kept.tended pid line (standing _ not)).imp_left (spawned _)
  · exact fun pid channel threat => (kept.spared pid channel threat).imp_left (hangup _)

theorem spawn_kept (kept : Kept lag calls ⟨shared, procs⟩) (task : Task) :
    Kept lag calls ⟨shared.spawn task, procs⟩ :=
  effect_kept kept rfl rfl (fun _ hung => hung) (fun _ => List.mem_cons_of_mem _)
    fun _ _ marked => marked

theorem lock_kept (kept : Kept lag calls ⟨shared, procs⟩) : Kept lag calls ⟨shared.lock, procs⟩ :=
  effect_kept kept rfl rfl (fun _ hung => hung) (fun _ among => among)
    fun _ _ marked => marked

theorem hang_kept (kept : Kept lag calls ⟨shared, procs⟩) (channel : String) :
    Kept lag calls ⟨shared.hang channel, procs⟩ := by
  refine effect_kept kept rfl rfl ?_ (fun _ among => among)
    fun _ _ marked => marked
  intro other hung
  by_cases same : other = channel <;> simp [Shared.hang, same, hung]

theorem marked_mark (channel : String) :
    Marked shared.now ((shared.mark channel).still_in_queue channel) shared.now where
  set := Nat.le_refl _
  lasts := Nat.lt_add_of_pos_right (by decide)
  found := ⟨shared.now + 15, by simp [Shared.mark], Nat.le_refl _⟩

theorem mark_kept (kept : Kept lag calls ⟨shared, procs⟩) (channel : String) :
    Kept lag calls ⟨shared.mark channel, procs⟩ := by
  refine effect_kept kept rfl rfl (fun _ hung => hung) (fun _ among => among) ?_
  intro other moment marked
  refine ⟨marked.set, marked.lasts, ?_⟩
  by_cases same : other = channel
  · refine ⟨shared.now + 15, by simp [Shared.mark, same], ?_⟩
    exact Nat.add_le_add_right marked.set 15
  · simpa [Shared.mark, Function.update_of_ne same] using marked.found

/-- What is taken out of the line has no place in it any more. -/
theorem zrem_kept (kept : Kept lag calls ⟨shared, procs⟩) {channel : String}
    (gone : shared.hangup channel = true ∨ ¬InLine calls ⟨shared, procs⟩ channel) :
    Kept lag calls ⟨shared.zrem channel, procs⟩ := by
  have still : ∀ other score, (shared.zrem channel).calls.entries.lookup other = some score →
      shared.calls.entries.lookup other = some score := by
    intro other score found
    rw [Shared.zrem, IndexMap.lookup_erase] at found
    split at found
    · cases found
    · exact found
  have fewer : (shared.zrem channel).calls.entries.Sublist shared.calls.entries :=
    List.filter_sublist
  constructor
  · exact fun entry among => kept.past entry (fewer.subset among)
  · intro pid
    obtain ⟨read, listed, noted, turn, limited⟩ := kept.known pid
    refine ⟨read, ?_, noted, ?_, ?_⟩
    · intro line not
      obtain ⟨score, found⟩ := listed line not
      refine ⟨score, ?_⟩
      show (shared.calls.erase channel).entries.lookup _ = _
      rw [IndexMap.lookup_erase, if_neg, found]
      rintro same
      rcases gone with hung | absent
      · exact absurd hung (by simp [← same, show shared.hangup _ = false from not])
      · exact absent ⟨pid, same, line⟩
    · intro through score found entry among
      exact turn through score (still _ _ found) entry (fewer.subset among)
    · intro checked score some found
      exact Nat.lt_of_le_of_lt fewer.countP_le (limited checked score some (still _ _ found))
  · exact kept.tended
  · exact kept.spared

/-- A call that joins in time joins behind the others, but for those of the last `lag` seconds. -/
theorem zadd_kept (kept : Kept lag calls ⟨shared, procs⟩) {joining : ℕ} {score : ℕ}
    (distinct : Function.Injective fun pid => (calls pid).channel)
    (adding : procs joining = .adding score) (prompt : shared.now ≤ score + lag) :
    Kept lag calls ⟨shared.zadd (calls joining).channel score, procs⟩ := by
  have others : ∀ pid, (procs pid).checked = true ∨ (procs pid).through = true →
      ∀ second, (shared.zadd (calls joining).channel score).calls.entries.lookup
          (calls pid).channel = some second →
        shared.calls.entries.lookup (calls pid).channel = some second ∧ second ≤ shared.now := by
    intro pid place second found
    rw [Shared.zadd, IndexMap.lookup_insert, if_neg] at found
    · exact ⟨found, kept.past _ ((IndexMap.mem_iff_lookup _ _ _).mpr found)⟩
    · intro same
      rw [distinct same, adding] at place
      rcases place with checked | through
      · cases checked
      · cases through
  constructor
  · intro entry among
    rcases IndexMap.mem_insert among with rfl | old
    · exact (kept.known joining).read score adding
    · exact kept.past entry old
  · intro pid
    obtain ⟨read, listed, noted, turn, limited⟩ := kept.known pid
    refine ⟨read, ?_, noted, ?_, ?_⟩
    · intro line not
      obtain ⟨second, found⟩ := listed line not
      show ∃ score, (shared.calls.insert _ _).entries.lookup _ = some score
      rw [IndexMap.lookup_insert]
      split
      · exact ⟨_, rfl⟩
      · exact ⟨second, found⟩
    · intro through second found entry among
      obtain ⟨before, past⟩ := others pid (Or.inr through) second found
      rcases IndexMap.mem_insert among with rfl | old
      · exact Nat.le_trans past prompt
      · exact turn through second before entry old
    · intro checked second some found
      obtain ⟨before, past⟩ := others pid (Or.inl checked) second found
      apply Nat.lt_of_le_of_lt _ (limited checked second some before)
      apply IndexMap.countP_insert_le
      simp only [decide_eq_true_eq]
      omega
  · exact kept.tended
  · exact kept.spared

theorem tick_kept (kept : Kept lag calls ⟨shared, procs⟩)
    (awake : ∀ pid channel place marked, procs pid = .keeping channel place (some marked) →
      shared.now + 1 < marked + 15) :
    Kept lag calls ⟨{ shared with now := shared.now + 1 }, procs⟩ where
  past := fun entry among => Nat.le_succ_of_le (kept.past entry among)
  known := by
    intro pid
    obtain ⟨read, listed, noted, turn, limited⟩ := kept.known pid
    refine ⟨fun score adding => Nat.le_succ_of_le (read score adding), listed, ?_, turn, limited⟩
    intro channel place moment keeping
    obtain ⟨set, _, found⟩ := noted channel place moment keeping
    exact ⟨Nat.le_succ_of_le set, awake pid channel place moment keeping, found⟩
  tended := kept.tended
  spared := kept.spared

end Effects

section Places
variable {lag : ℕ} {calls : ℕ → Call} {world : World Shared Stage} {pid : ℕ} {stage : Stage}

/-- What a process may come to as nothing is written. -/
structure Follows (lag : ℕ) (calls : ℕ → Call) (world : World Shared Stage) (pid : ℕ)
    (stage : Stage) : Prop where
  known : Known lag world.shared (calls pid) stage
  line : stage.inLine = true → (world.procs pid).inLine = true ∨
    .keep_in_queue (calls pid).channel ∈ world.shared.spawned ∧
      ¬Threatened world (calls pid).channel
  keeps : ∀ channel place marked, world.procs pid = .keeping channel place marked →
    (∃ place marked, stage = .keeping channel place marked) ∨
      world.shared.hangup channel = true ∨ ¬InLine calls world channel
  spared : ∀ channel, stage.against = some channel →
    world.shared.hangup channel = true ∨ ¬InLine calls world channel

theorem inLine_moved {channel : String}
    (line : InLine calls (world.moved pid world.shared stage) channel) :
    InLine calls world channel ∨
      (calls pid).channel = channel ∧ stage.inLine = true ∧ (world.procs pid).inLine = false := by
  obtain ⟨other, same, inLine⟩ := line
  by_cases own : other = pid
  · subst own
    rw [moved_same] at inLine
    cases before : (world.procs other).inLine with
    | true => exact Or.inl ⟨other, same, before⟩
    | false => exact Or.inr ⟨same, inLine, rfl⟩
  · rw [moved_other _ _ _ own] at inLine
    exact Or.inl ⟨other, same, inLine⟩

theorem against_of_inLine (line : stage.inLine = true) : stage.against = none := by
  cases stage <;> first | rfl | cases line

theorem moved_kept (kept : Kept lag calls world) (follows : Follows lag calls world pid stage) :
    Kept lag calls (world.moved pid world.shared stage) := by
  have tended : ∀ channel, InLine calls world channel → world.shared.hangup channel = false →
      Tended world channel → Tended (world.moved pid world.shared stage) channel := by
    rintro channel line not (spawned | ⟨keeper, place, marked, keeping⟩)
    · exact Or.inl spawned
    · right
      by_cases own : keeper = pid
      · subst own
        rcases follows.keeps channel place marked keeping with ⟨place, marked, same⟩ | hung | absent
        · exact ⟨keeper, place, marked, by rw [moved_same, same]⟩
        · exact absurd hung (by simp [not])
        · exact absurd line absent
      · exact ⟨keeper, place, marked, by rw [moved_other _ _ _ own, keeping]⟩
  constructor
  · exact kept.past
  · exact all_moved (fun other => Known lag world.shared (calls other)) follows.known
      fun other _ => kept.known other
  · intro other line not
    by_cases own : other = pid
    · subst own
      rw [moved_same] at line
      rcases follows.line line with before | ⟨spawned, _⟩
      · exact tended _ ⟨other, rfl, before⟩ not (kept.tended other before not)
      · exact Or.inl spawned
    · rw [moved_other _ _ _ own] at line
      exact tended _ ⟨other, rfl, line⟩ not (kept.tended other line not)
  · intro other channel threat
    by_cases own : other = pid
    · subst own
      rw [moved_same] at threat
      refine (follows.spared channel threat).imp_right fun absent line => ?_
      rcases inLine_moved line with before | ⟨_, joined, _⟩
      · exact absent before
      · rw [against_of_inLine joined] at threat
        cases threat
    · rw [moved_other _ _ _ own] at threat
      refine (kept.spared other channel threat).imp_right fun absent line => ?_
      rcases inLine_moved line with before | ⟨rfl, joined, apart⟩
      · exact absent before
      · rcases follows.line joined with before | ⟨_, unthreatened⟩
        · exact absurd before (by simp [apart])
        · exact unthreatened ⟨other, threat⟩

end Places

section Steps
variable {lag : ℕ} {calls : ℕ → Call} {world : World Shared Stage} {pid : ℕ} {stage : Stage}
  {shared : Shared}

def Stage.isCall : Stage → Bool
  | .keeping .. | .checking _ => false
  | _ => true

theorem call_follows (kept : Kept lag calls world) (old : (world.procs pid).isCall = true)
    (new : stage.isCall = true) (read : ∀ score, stage = .adding score → score ≤ world.shared.now)
    (line : stage.inLine = true → (world.procs pid).inLine = true)
    (turn : stage.through = true → InTurn lag world.shared (calls pid).channel)
    (limited : stage.checked = true → FewAhead lag world.shared (calls pid)) :
    Follows lag calls world pid stage where
  known :=
    { read
      listed := fun inLine => (kept.known pid).listed (line inLine)
      marked := by
        rintro channel place marked rfl
        cases new
      turn
      limited }
  line := fun inLine => Or.inl (line inLine)
  keeps := by
    intro channel place marked keeping
    rw [keeping] at old
    cases old
  spared := by
    intro channel threat
    cases stage <;> first | cases threat | cases new

/-- A call that goes no further than it was. -/
theorem aside_kept (kept : Kept lag calls world) {before : Stage} (place : world.procs pid = before)
    (old : before.isCall = true) (new : stage.isCall = true)
    (read : ∀ score, stage = .adding score → score ≤ world.shared.now)
    (line : stage.inLine = true → before.inLine = true)
    (turn : stage.through = true → before.through = true)
    (limited : stage.checked = true → before.checked = true) :
    Kept lag calls (world.moved pid world.shared stage) := by
  subst place
  exact moved_kept kept (call_follows kept old new read line
    (fun through => (kept.known pid).turn (turn through))
    fun checked => (kept.known pid).limited (limited checked))

def Stage.isLeft : Stage → Bool
  | .leaving | .idle | .answered | .picked_up => true
  | _ => false

theorem left_kept (kept : Kept lag calls world) {before : Stage} (place : world.procs pid = before)
    (old : before.isCall = true) (new : stage.isLeft = true) :
    Kept lag calls (world.moved pid world.shared stage) := by
  cases stage <;> first
    | cases new; done
    | exact aside_kept kept place old rfl nofun nofun nofun nofun

theorem remove_call_kept (kept : Kept lag calls (world.moved pid world.shared stage))
    (distinct : Function.Injective fun pid => (calls pid).channel) (out : stage.inLine = false)
    (outcome : Outcome) :
    Kept lag calls (world.moved pid (remove_call (calls pid) world.shared outcome) stage) := by
  unfold remove_call
  split
  · refine zrem_kept kept (Or.inr ?_)
    rintro ⟨other, same, line⟩
    have own : other = pid := distinct same
    subst own
    rw [← World.moved, moved_same, out] at line
    cases line
  · exact kept

theorem take_kept (kept : Kept lag calls world) {task : Task}
    (idle : world.procs pid = .idle) :
    Kept lag calls (world.moved pid
      { world.shared with spawned := world.shared.spawned.erase task } task.start) := by
  have begun : Kept lag calls (world.moved pid world.shared task.start) := by
    refine moved_kept kept ⟨?_, ?_, ?_, ?_⟩
    · cases task <;> exact ⟨nofun, nofun, nofun, nofun, nofun⟩
    · cases task <;> nofun
    · intro channel place marked keeping
      rw [idle] at keeping
      cases keeping
    · cases task <;> nofun
  refine ⟨begun.past, fun other => ?_, fun other line not => ?_, begun.spared⟩
  · obtain ⟨read, listed, noted, turn, limited⟩ := begun.known other
    exact ⟨read, listed, noted, turn, limited⟩
  · by_cases same : task = .keep_in_queue (calls other).channel
    · subst same
      exact Or.inr ⟨pid, .is_hangup, none, moved_same _ _ _ _⟩
    · exact (begun.tended other line not).imp_left (List.mem_erase_of_ne (Ne.symm same)).mpr

theorem add_call_kept (kept : Kept lag calls world)
    (distinct : Function.Injective fun pid => (calls pid).channel) {score : ℕ} (outcome : Outcome)
    (adding : world.procs pid = .adding score) (prompt : world.shared.now ≤ score + lag)
    (uncontested : ¬Threatened world (calls pid).channel) :
    Kept lag calls (world.moved pid (add_call (calls pid) world.shared score outcome).1
      (add_call (calls pid) world.shared score outcome).2) := by
  have written := zadd_kept kept distinct adding prompt
  cases outcome with
  | failed => exact left_kept kept adding rfl rfl
  | lost => exact left_kept written adding rfl rfl
  | done =>
    have spawned := spawn_kept written (.keep_in_queue (calls pid).channel)
    refine moved_kept spawned ?_
    refine ⟨⟨nofun, fun _ _ => ⟨score, ?_⟩, nofun, nofun, nofun⟩,
      fun _ => Or.inr ⟨List.mem_cons_self, uncontested⟩, ?_, nofun⟩
    · show (world.shared.calls.insert _ _).entries.lookup _ = _
      rw [IndexMap.lookup_insert, if_pos rfl]
    · intro channel place marked keeping
      exact absurd (adding.symm.trans keeping) nofun

theorem position_kept (kept : Kept lag calls world) {first : Bool} (outcome : Outcome)
    (asking : world.procs pid = .asking first) :
    Kept lag calls (world.moved pid (position (calls pid) world.shared first outcome).1
      (position (calls pid) world.shared first outcome).2) := by
  unfold position
  split
  · exact left_kept kept asking rfl rfl
  · rename_i position asked
    have ranked : ScoredSet.rank world.shared.calls (calls pid).channel = some position := by
      unfold query_position at asked
      split at asked
      · exact asked
      · cases asked
    have spawned : Kept lag calls ⟨world.shared.spawn .check_calls, world.procs⟩ :=
      spawn_kept kept .check_calls
    split
    · exact left_kept spawned asking rfl rfl
    · rename_i few
      refine moved_kept spawned (call_follows spawned (by simp only [asking]; rfl) rfl nofun ?_ ?_ ?_)
      · intro _
        show (world.procs pid).inLine = true
        rw [asking]
        rfl
      · intro through score found entry among
        have zero : position = 0 := by simpa [Stage.through] using through
        subst zero
        exact Nat.le_add_right_of_le (ScoredSet.score_le_of_first found ranked among)
      · intro _ score some found
        cases first with
        | false => exact (kept.known pid).limited (by rw [asking]; rfl) score some found
        | true =>
          have below : position < (calls pid).max_waiting := by
            simpa [some] using few
          refine Nat.lt_of_le_of_lt (ScoredSet.count_le_rank found ranked _ ?_) below
          intro entry earlier
          simp only [decide_eq_true_eq] at earlier
          omega

theorem caller_kept (kept : Kept lag calls world)
    (distinct : Function.Injective fun pid => (calls pid).channel) {choice : Choice}
    (onTime : OnTime lag calls world (.proc pid choice))
    (stepped : caller (calls pid) world.shared choice (world.procs pid) = some (shared, stage)) :
    Kept lag calls (world.moved pid shared stage) := by
  generalize place : world.procs pid = before at stepped
  unfold caller at stepped
  split at stepped
  · cases stepped
    refine aside_kept kept place rfl rfl ?_ nofun nofun nofun
    rintro score ⟨⟩
    exact Nat.le_refl _
  · split at stepped
    · cases stepped
      exact take_kept kept place
    · cases stepped
  · rename_i outcome score
    have added := add_call_kept kept distinct outcome place (onTime.prompt _ _ _ rfl place)
      (onTime.uncontested _ _ _ rfl place)
    rwa [Option.some.inj stepped] at added
  · cases stepped
    split
    · exact aside_kept kept place rfl rfl nofun (fun _ => rfl) nofun nofun
    · exact left_kept kept place rfl rfl
  · rename_i outcome first
    have asked := position_kept kept outcome place
    rwa [Option.some.inj stepped] at asked
  · cases stepped
    split
    · exact aside_kept kept place rfl rfl nofun (fun _ => rfl) nofun (fun _ => rfl)
    · rename_i first
      simp only [Bool.or_eq_true, decide_eq_true_eq, not_or, Nat.not_lt, Nat.le_zero] at first
      refine aside_kept kept place rfl rfl nofun (fun _ => rfl) (fun _ => ?_) (fun _ => rfl)
      rw [first.1]
      rfl
  · cases stepped
    unfold play_hint
    split
    · exact aside_kept kept place rfl rfl nofun (fun _ => rfl) nofun (fun _ => rfl)
    · have spawned : Kept lag calls ⟨world.shared.spawn .check_calls, world.procs⟩ :=
        spawn_kept kept .check_calls
      exact aside_kept spawned place rfl rfl nofun (fun _ => rfl) nofun (fun _ => rfl)
  · cases stepped
    exact left_kept kept place rfl rfl
  · cases stepped
    exact left_kept kept place rfl rfl
  · cases stepped
    split
    · exact left_kept kept place rfl rfl
    · exact aside_kept kept place rfl rfl nofun (fun _ => rfl) nofun (fun _ => rfl)
  · cases stepped
    exact remove_call_kept (left_kept kept place rfl rfl) distinct rfl _
  · cases stepped
    split
    · exact left_kept kept place rfl rfl
    · exact aside_kept kept place rfl rfl nofun (fun _ => rfl) (fun _ => rfl) (fun _ => rfl)
  · cases stepped
    exact left_kept kept place rfl rfl
  · cases stepped
    exact left_kept kept place rfl rfl
  · cases stepped
    exact remove_call_kept (left_kept kept place rfl rfl) distinct rfl _
  · cases stepped
    exact left_kept kept place rfl rfl
  · cases stepped
    exact remove_call_kept (left_kept kept place rfl rfl) distinct rfl _
  · cases stepped

/-- A keeper that goes on, or has nothing to keep. -/
theorem keeper_follows (kept : Kept lag calls world) {channel : String} {place : Keeping}
    {marked : Option ℕ} (keeping : world.procs pid = .keeping channel place marked)
    (new : (∃ place marked, stage = .keeping channel place marked ∧
        ∀ moment, marked = some moment →
          Marked world.shared.now (world.shared.still_in_queue channel) moment) ∨
      stage = .idle ∧ (world.shared.hangup channel = true ∨ ¬InLine calls world channel)) :
    Kept lag calls (world.moved pid world.shared stage) := by
  apply moved_kept kept
  rcases new with ⟨place, marked, rfl, noted⟩ | ⟨rfl, gone⟩
  · refine ⟨⟨nofun, nofun, ?_, nofun, nofun⟩, nofun, ?_, nofun⟩
    · rintro _ _ moment ⟨⟩
      exact noted moment rfl
    · intro other _ _ same
      rw [keeping] at same
      cases same
      exact Or.inl ⟨place, marked, rfl⟩
  · refine ⟨⟨nofun, nofun, nofun, nofun, nofun⟩, nofun, ?_, nofun⟩
    intro other _ _ same
    rw [keeping] at same
    cases same
    exact Or.inr gone

theorem keeper_kept (kept : Kept lag calls world) {channel : String} {place : Keeping}
    {marked : Option ℕ} (keeping : world.procs pid = .keeping channel place marked)
    {outcome : Outcome} (goes : InLine calls world channel → outcome = .done) :
    Kept lag calls (world.moved pid (keeper world.shared channel outcome marked place).1
      (keeper world.shared channel outcome marked place).2) := by
  have noted : ∀ moment, marked = some moment →
      Marked world.shared.now (world.shared.still_in_queue channel) moment := by
    rintro moment rfl
    exact (kept.known pid).marked channel place moment keeping
  cases place with
  | is_hangup =>
    refine keeper_follows kept keeping ?_
    unfold keeper
    dsimp only
    split
    · exact Or.inl ⟨_, _, rfl, noted⟩
    · rename_i stops
      refine Or.inr ⟨rfl, ?_⟩
      by_cases line : InLine calls world channel
      · rw [goes line] at stops
        left
        simpa [Outcome.confirmed] using stops
      · exact Or.inr line
  | zrank =>
    refine keeper_follows kept keeping ?_
    unfold keeper
    dsimp only
    split
    · exact Or.inl ⟨_, _, rfl, noted⟩
    · rename_i stops
      refine Or.inr ⟨rfl, ?_⟩
      by_cases line : InLine calls world channel
      · left
        rw [goes line] at stops
        obtain ⟨other, rfl, inLine⟩ := line
        cases standing : world.shared.hangup (calls other).channel with
        | true => rfl
        | false =>
          obtain ⟨score, found⟩ := (kept.known other).listed inLine standing
          simp [Outcome.confirmed, ScoredSet.rank, found] at stops
      · exact Or.inr line
  | setex =>
    unfold keeper
    dsimp only
    split
    · refine keeper_follows (mark_kept kept channel) keeping (Or.inl ⟨_, _, rfl, ?_⟩)
      rintro moment ⟨⟩
      exact @marked_mark world.shared channel
    · exact keeper_follows kept keeping (Or.inl ⟨_, _, rfl, noted⟩)
  | sleep since => exact keeper_follows kept keeping (Or.inl ⟨_, _, rfl, noted⟩)

theorem inLine_of_through (through : stage.through = true) : stage.inLine = true := by
  cases stage <;> first | rfl | cases through

theorem inLine_of_checked (checked : stage.checked = true) : stage.inLine = true := by
  cases stage <;> first | rfl | cases checked

/-- A check that goes on has seen of the next call what it does about it. -/
theorem check_follows (kept : Kept lag calls world) {place : Checking}
    (checking : world.procs pid = .checking place)
    (new : stage = .idle ∨ ∃ place, stage = .checking place)
    (spared : ∀ channel, stage.against = some channel →
      world.shared.hangup channel = true ∨ ¬InLine calls world channel) :
    Kept lag calls (world.moved pid world.shared stage) := by
  have out : stage.inLine ≠ true := by
    rcases new with rfl | ⟨_, rfl⟩ <;> nofun
  have known : Known lag world.shared (calls pid) stage := by
    refine ⟨?_, fun line => absurd line out, ?_, fun through => absurd (inLine_of_through through) out,
      fun checked => absurd (inLine_of_checked checked) out⟩
    · rcases new with rfl | ⟨_, rfl⟩ <;> nofun
    · rcases new with rfl | ⟨_, rfl⟩ <;> nofun
  refine moved_kept kept ⟨known, fun line => absurd line out, ?_, spared⟩
  intro channel other marked keeping
  rw [checking] at keeping
  cases keeping

theorem checkNext_cases (rest : List String) :
    checkNext rest = .idle ∨ ∃ channel rest', checkNext rest = .checking (.is_hangup channel rest') := by
  cases rest with
  | nil => exact Or.inl rfl
  | cons channel rest => exact Or.inr ⟨channel, rest, rfl⟩

theorem next_follows (kept : Kept lag calls world) {place : Checking}
    (checking : world.procs pid = .checking place) (rest : List String) :
    Kept lag calls (world.moved pid world.shared (checkNext rest)) := by
  rcases checkNext_cases rest with done | ⟨channel, others, next⟩
  · rw [done]
    exact check_follows kept checking (Or.inl rfl) nofun
  · rw [next]
    exact check_follows kept checking (Or.inr ⟨_, rfl⟩) nofun

theorem hasMark_of_marked {channel : String} {moment : ℕ}
    (marked : Marked shared.now (shared.still_in_queue channel) moment) :
    shared.hasMark channel = true := by
  obtain ⟨_, lasts, ends, found, late⟩ := marked
  have live : shared.now < ends := Nat.lt_of_lt_of_le lasts late
  simp [Shared.hasMark, found, live]

/-- A call in line that is not hung up has its mark, once its keeper has set the first. -/
theorem hasMark_inLine (kept : Kept lag calls world) {channel : String}
    (line : InLine calls world channel) (standing : world.shared.hangup channel = false)
    (begun : ¬Fresh world channel) : world.shared.hasMark channel = true := by
  obtain ⟨other, rfl, inLine⟩ := line
  rcases kept.tended other inLine standing with spawned | ⟨keeper, place, marked, keeping⟩
  · exact absurd (Or.inl spawned) begun
  · cases marked with
    | none => exact absurd (Or.inr ⟨keeper, place, keeping⟩) begun
    | some moment => exact hasMark_of_marked ((kept.known keeper).marked _ _ _ keeping)

theorem checker_kept (kept : Kept lag calls world) {place : Checking} {outcome : Outcome}
    (checking : world.procs pid = .checking place)
    (onTime : OnTime lag calls world (.proc pid (.command outcome))) :
    Kept lag calls (world.moved pid (checker world.shared outcome place).1
      (checker world.shared outcome place).2) := by
  cases place with
  | setexnx =>
    unfold checker
    dsimp only
    split
    · have locked : Kept lag calls ⟨world.shared.lock, world.procs⟩ := lock_kept kept
      cases outcome with
      | done => exact check_follows locked checking (Or.inr ⟨_, rfl⟩) nofun
      | lost => exact check_follows locked checking (Or.inl rfl) nofun
      | failed => exact check_follows kept checking (Or.inl rfl) nofun
    · exact check_follows kept checking (Or.inl rfl) nofun
  | zrange =>
    unfold checker
    dsimp only
    split
    · exact next_follows kept checking _
    · exact check_follows kept checking (Or.inl rfl) nofun
  | is_hangup channel rest =>
    refine check_follows kept checking (Or.inr ⟨_, rfl⟩) ?_
    intro other threat
    unfold checker at threat
    dsimp only at threat
    split at threat
    · cases threat
    · rename_i hung
      cases threat
      by_cases line : InLine calls world channel
      · rw [onTime.asked_hangup _ _ _ _ rfl checking line] at hung
        left
        simpa [Outcome.confirmed] using hung
      · exact Or.inr line
  | still_in_queue channel rest =>
    unfold checker
    dsimp only
    split
    · exact next_follows kept checking rest
    · rename_i unmarked
      refine check_follows kept checking (Or.inr ⟨_, rfl⟩) ?_
      rintro other ⟨⟩
      by_cases line : InLine calls world channel
      · obtain ⟨rfl, begun⟩ := onTime.asked_mark _ _ _ _ rfl checking line
        left
        cases standing : world.shared.hangup channel with
        | true => rfl
        | false => simp [Outcome.confirmed, hasMark_inLine kept line standing begun] at unmarked
      · exact Or.inr line
  | hangup channel rest =>
    have threat : (world.procs pid).against = some channel := by rw [checking]; rfl
    have hung : Kept lag calls
        ⟨if outcome.carriedOut then world.shared.hang channel else world.shared, world.procs⟩ := by
      split
      · exact hang_kept kept channel
      · exact kept
    refine check_follows hung checking (Or.inr ⟨_, rfl⟩) ?_
    rintro other ⟨⟩
    exact hung.spared pid channel threat
  | zrem channel rest =>
    have threat : (world.procs pid).against = some channel := by rw [checking]; rfl
    have removed : Kept lag calls
        ⟨if outcome.carriedOut then world.shared.zrem channel else world.shared, world.procs⟩ := by
      split
      · exact zrem_kept kept (kept.spared pid channel threat)
      · exact kept
    exact next_follows removed checking rest

theorem crash_kept (kept : Kept lag calls world)
    (onTime : OnTime lag calls world (.proc pid .crash)) :
    Kept lag calls (world.moved pid world.shared .idle) := by
  refine moved_kept kept ⟨⟨nofun, nofun, nofun, nofun, nofun⟩, nofun, ?_, nofun⟩
  intro channel place marked keeping
  right
  right
  exact fun line => absurd (onTime.kept _ _ _ _ _ rfl keeping line) nofun

theorem step_kept (kept : Kept lag calls world)
    (distinct : Function.Injective fun pid => (calls pid).channel) {choice : Choice}
    (onTime : OnTime lag calls world (.proc pid choice))
    (stepped : step calls pid choice world.shared (world.procs pid) = some (shared, stage)) :
    Kept lag calls (world.moved pid shared stage) := by
  unfold step at stepped
  split at stepped
  · rename_i channel place marked keeping
    split at stepped
    · rename_i outcome
      have done : InLine calls world channel → outcome = .done := fun line => by
        simpa using onTime.kept _ _ _ _ _ rfl keeping line
      have keeper := keeper_kept kept keeping done
      rwa [Option.some.inj stepped] at keeper
    · cases stepped
      exact crash_kept kept onTime
    · cases stepped
  · rename_i place checking
    split at stepped
    · have checked := checker_kept kept checking onTime
      rwa [Option.some.inj stepped] at checked
    · cases stepped
      exact crash_kept kept onTime
    · cases stepped
  · split at stepped
    · cases stepped
      exact crash_kept kept onTime
    · exact caller_kept kept distinct onTime stepped

end Steps

section Runs
variable {lag : ℕ} {calls : ℕ → Call} {world : World Shared Stage}

theorem start_kept : Kept lag calls start := by
  refine ⟨nofun, fun _ => ⟨nofun, nofun, nofun, nofun, nofun⟩, nofun, ?_⟩
  intro pid channel threat
  cases threat

theorem run_kept (distinct : Function.Injective fun pid => (calls pid).channel)
    (run : Run (queue calls) (OnTime lag calls) start world) : Kept lag calls world := by
  refine run_keeps (Kept lag calls) start_kept (fun before action after kept onTime acted => ?_) run
  rcases act_cases acted with ⟨pid, choice, shared, stage, rfl, stepped, rfl⟩ |
    ⟨event, shared, rfl, happened, rfl⟩
  · exact step_kept kept distinct onTime stepped
  · cases event with
    | tick =>
      cases happened
      exact tick_kept kept (onTime.awake rfl)
    | hangup channel =>
      cases happened
      exact hang_kept kept channel

def Stage.begins (channel : String) : Stage → Bool
  | .keeping other _ none => decide (other = channel)
  | _ => false

def Stage.lastMark : Stage → Option ℕ
  | .keeping _ _ marked => marked
  | _ => none

def Choice.succeeds : Choice → Bool
  | .command .done => true
  | _ => false

theorem done_of_succeeds {choice : Choice} (succeeds : choice.succeeds = true) :
    choice = .command .done := by
  unfold Choice.succeeds at succeeds
  split at succeeds
  · rfl
  · cases succeeds

/-- What the line rests on, checked where only the first processes move. -/
def onTime (bound lag : ℕ) (calls : ℕ → Call) (world : World Shared Stage) :
    Action Choice Outside → Bool
  | .proc pid choice => decide (pid < bound) &&
    match world.procs pid with
    | .adding score => decide (world.shared.now ≤ score + lag) &&
      (List.range bound).all fun other =>
        decide ((world.procs other).against ≠ some (calls pid).channel)
    | .keeping .. => choice.succeeds
    | .checking (.still_in_queue channel _) => choice.succeeds &&
      decide (.keep_in_queue channel ∉ world.shared.spawned) &&
      (List.range bound).all fun other => !(world.procs other).begins channel
    | .checking _ => choice.succeeds
    | _ => true
  | .outside .tick => (List.range bound).all fun pid =>
    (world.procs pid).lastMark.all fun marked => decide (world.shared.now + 1 < marked + 15)
  | .outside (.hangup _) => true

def Resting (bound : ℕ) (world : World Shared Stage) : Prop :=
  ∀ pid, bound ≤ pid → world.procs pid = .idle

theorem below_of_onTime {bound pid : ℕ} {choice : Choice}
    (passed : onTime bound lag calls world (.proc pid choice) = true) : pid < bound := by
  unfold onTime at passed
  simpa using And.left (Bool.and_eq_true_iff.mp passed)

theorem onTime_sound {bound : ℕ} (action : Action Choice Outside) (resting : Resting bound world)
    (passed : onTime bound lag calls world action = true) : OnTime lag calls world action := by
  have near : ∀ pid, world.procs pid ≠ .idle → pid < bound :=
    fun pid busy => Nat.lt_of_not_le fun far => busy (resting pid far)
  constructor
  · rintro pid score outcome rfl adding
    simp only [onTime, adding, Bool.and_eq_true, decide_eq_true_eq] at passed
    exact passed.2.1
  · rintro pid score outcome rfl adding ⟨other, threat⟩
    simp only [onTime, adding, Bool.and_eq_true, decide_eq_true_eq, List.all_eq_true,
      List.mem_range] at passed
    refine passed.2.2 other (near other ?_) threat
    intro idle
    rw [idle] at threat
    cases threat
  · rintro pid choice channel place marked rfl keeping _
    simp only [onTime, keeping, Bool.and_eq_true] at passed
    exact done_of_succeeds passed.2
  · rintro pid outcome channel rest rfl checking _
    simp only [onTime, checking, Bool.and_eq_true] at passed
    simpa using done_of_succeeds passed.2
  · rintro pid outcome channel rest rfl checking _
    simp only [onTime, checking, Bool.and_eq_true, decide_eq_true_eq, List.all_eq_true,
      List.mem_range, Bool.not_eq_true'] at passed
    obtain ⟨_, ⟨done, unspawned⟩, begun⟩ := passed
    refine ⟨by simpa using done_of_succeeds done, ?_⟩
    · rintro (spawned | ⟨keeper, place, keeping⟩)
      · exact unspawned spawned
      · have fresh := begun keeper (near keeper (by rw [keeping]; nofun))
        simp [keeping, Stage.begins] at fresh
  · rintro rfl pid channel place marked keeping
    simp only [onTime, List.all_eq_true, List.mem_range] at passed
    have early := passed pid (near pid (by rw [keeping]; nofun))
    simpa [keeping, Stage.lastMark] using early

def nthCall (pid : ℕ) : Call := ⟨String.ofList (List.replicate pid 'a'), 3⟩

theorem nthCall_distinct : Function.Injective fun pid => (nthCall pid).channel := by
  intro pid other same
  simpa [nthCall] using congrArg (fun channel => channel.toList.length) same

def commands (count pid : ℕ) : List (Action Choice Outside) :=
  List.replicate count (.proc pid (.command .done))

/-- The first call rings, the second waits behind it, and a check goes over both. -/
def twoCalls : List (Action Choice Outside) :=
  .proc 0 .add_call :: commands 1 0 ++
    .proc 2 (.take (.keep_in_queue (nthCall 0).channel)) :: commands 3 2 ++
    .proc 0 (.registered true) :: commands 1 0 ++
    .proc 0 (.available true) :: .outside .tick :: .proc 1 .add_call :: commands 1 1 ++
    .proc 3 (.take (.keep_in_queue (nthCall 1).channel)) :: commands 3 3 ++
    .proc 1 (.registered true) :: commands 1 1 ++
    .proc 1 (.available true) :: .proc 4 (.take .check_calls) :: commands 6 4

end Runs

section Dead
variable {calls : ℕ → Call} {world : World Shared Stage} {channel : String} {pid : ℕ}
  {shared after : Shared} {stage next : Stage}

/-- A call that nothing keeps in the line: its mark has run out, nobody sets another one, and it is
    not about to join. -/
structure Dead (calls : ℕ → Call) (world : World Shared Stage) (channel : String) : Prop where
  unmarked : world.shared.hasMark channel = false
  untended : ¬Tended world channel
  apart : ∀ pid score, world.procs pid = .adding score → (calls pid).channel ≠ channel

/-- The commands of the check succeed, and the call does not join again. -/
def Checks (calls : ℕ → Call) (pid : ℕ) (channel : String) : Guard Shared Stage Choice Outside :=
  fun world action =>
    (∀ choice place, action = .proc pid choice → world.procs pid = .checking place →
      choice = .command .done) ∧
    ∀ other, action = .proc other .add_call → (calls other).channel ≠ channel

/-- A check that has yet to come to a channel, or is at it. -/
def Stage.ahead (channel : String) : Stage → Prop
  | .checking .zrange => True
  | .checking (.is_hangup first rest) | .checking (.still_in_queue first rest)
  | .checking (.hangup first rest) | .checking (.zrem first rest) => channel ∈ first :: rest
  | _ => False

def Gone (shared : Shared) (channel : String) : Prop :=
  shared.calls.entries.lookup channel = none

/-- What a step does not do for a dead call. -/
structure Spares (channel : String) (shared after : Shared) : Prop where
  marks : after.still_in_queue channel = shared.still_in_queue channel
  now : after.now = shared.now
  spawned : .keep_in_queue channel ∈ after.spawned → .keep_in_queue channel ∈ shared.spawned
  gone : Gone shared channel → Gone after channel

theorem spares_same : Spares channel shared shared := ⟨rfl, rfl, id, id⟩

theorem spares_zadd {other : String} (different : other ≠ channel) (score : ℕ) :
    Spares channel shared (shared.zadd other score) := by
  refine ⟨rfl, rfl, id, fun gone => ?_⟩
  show (shared.calls.insert _ _).entries.lookup _ = none
  rw [IndexMap.lookup_insert, if_neg (Ne.symm different)]
  exact gone

theorem spares_zrem (other : String) : Spares channel shared (shared.zrem other) := by
  refine ⟨rfl, rfl, id, fun gone => ?_⟩
  show (shared.calls.erase _).entries.lookup _ = none
  rw [IndexMap.lookup_erase]
  split
  · rfl
  · exact gone

theorem spares_spawn {task : Task} (different : task ≠ .keep_in_queue channel)
    (spares : Spares channel shared after) : Spares channel shared (after.spawn task) := by
  refine ⟨spares.marks, spares.now, fun among => spares.spawned ?_, spares.gone⟩
  exact (List.mem_cons.mp among).resolve_left (Ne.symm different)

theorem remove_call_spares (call : Call) (outcome : Outcome) :
    Spares channel shared (remove_call call shared outcome) := by
  unfold remove_call
  split
  · exact spares_zrem _
  · exact spares_same

/-- What a process does not come to about a dead call. -/
structure Avoids (channel : String) (call : Call) (stage next : Stage) : Prop where
  adds : ∀ score, next = .adding score → call.channel ≠ channel
  keeps : ∀ place marked, next = .keeping channel place marked →
    ∃ place marked, stage = .keeping channel place marked

def Stage.calm : Stage → Bool
  | .adding _ | .keeping .. => false
  | _ => true

theorem avoids_calm {call : Call} (calm : next.calm = true) : Avoids channel call stage next := by
  constructor
  · rintro score rfl
    cases calm
  · rintro place marked rfl
    cases calm

theorem add_call_spares {call : Call} (different : call.channel ≠ channel) (score : ℕ)
    (outcome : Outcome) : Spares channel shared (add_call call shared score outcome).1 ∧
      Avoids channel call stage (add_call call shared score outcome).2 := by
  have other : Task.keep_in_queue call.channel ≠ .keep_in_queue channel := by
    rintro ⟨⟩
    exact different rfl
  cases outcome with
  | done => exact ⟨spares_spawn other (spares_zadd different score), nofun, nofun⟩
  | lost => exact ⟨spares_zadd different score, nofun, nofun⟩
  | failed => exact ⟨spares_same, nofun, nofun⟩

theorem position_spares (call : Call) (first : Bool) (outcome : Outcome) :
    Spares channel shared (position call shared first outcome).1 ∧
      Avoids channel call stage (position call shared first outcome).2 := by
  unfold position
  split
  · exact ⟨spares_same, nofun, nofun⟩
  · refine ⟨spares_spawn nofun spares_same, ?_, ?_⟩
    · split <;> nofun
    · split <;> nofun

theorem play_hint_spares (call : Call) (outcome : Outcome) :
    Spares channel shared (play_hint call shared outcome) := by
  unfold play_hint
  split
  · exact spares_same
  · exact spares_spawn nofun spares_same

theorem caller_spares {call : Call} {choice : Choice}
    (apart : ∀ score, stage = .adding score → call.channel ≠ channel)
    (joins : choice = .add_call → call.channel ≠ channel)
    (unspawned : .keep_in_queue channel ∉ shared.spawned)
    (stepped : caller call shared choice stage = some (after, next)) :
    Spares channel shared after ∧ Avoids channel call stage next := by
  unfold caller at stepped
  split at stepped
  · cases stepped
    exact ⟨spares_same, ⟨fun _ _ => joins rfl, nofun⟩⟩
  · split at stepped
    · rename_i task among
      cases stepped
      refine ⟨⟨rfl, rfl, List.mem_of_mem_erase, id⟩, ?_, ?_⟩
      · cases task <;> nofun
      · cases task with
        | check_calls => nofun
        | keep_in_queue other =>
          rintro place marked ⟨⟩
          exact absurd among unspawned
    · cases stepped
  · rename_i outcome score
    have added := @add_call_spares channel shared (.adding score) call (apart score rfl) score outcome
    rwa [Option.some.inj stepped] at added
  case h_5 outcome first =>
    have asked := @position_spares channel shared (.asking first) call first outcome
    rwa [Option.some.inj stepped] at asked
  -- What is left writes at most what takes the call out.
  all_goals cases stepped
  all_goals refine ⟨?_, avoids_calm ?_⟩
  all_goals first
    | rfl
    | exact spares_same
    | exact play_hint_spares call _
    | exact remove_call_spares call _
    | split <;> rfl

theorem keeper_spares {call : Call} {other : String} (different : other ≠ channel)
    (outcome : Outcome) (marked : Option ℕ) (place : Keeping) :
    Spares channel shared (keeper shared other outcome marked place).1 ∧
      Avoids channel call stage (keeper shared other outcome marked place).2 := by
  have avoids : ∀ place marked, Avoids channel call stage (.keeping other place marked) := by
    refine fun place marked => ⟨nofun, ?_⟩
    rintro _ _ ⟨⟩
    exact absurd rfl different
  have idle : Avoids channel call stage .idle := avoids_calm rfl
  cases place with
  | is_hangup =>
    refine ⟨spares_same, ?_⟩
    unfold keeper
    dsimp only
    split
    · exact avoids _ _
    · exact idle
  | zrank =>
    refine ⟨spares_same, ?_⟩
    unfold keeper
    dsimp only
    split
    · exact avoids _ _
    · exact idle
  | setex =>
    unfold keeper
    dsimp only
    split
    · refine ⟨⟨?_, rfl, id, id⟩, avoids _ _⟩
      exact Function.update_of_ne (Ne.symm different) _ _
    · exact ⟨spares_same, avoids _ _⟩
  | sleep since => exact ⟨spares_same, avoids _ _⟩

theorem checker_spares {call : Call} (outcome : Outcome) (place : Checking) :
    Spares channel shared (checker shared outcome place).1 ∧
      Avoids channel call stage (checker shared outcome place).2 := by
  have next : ∀ rest, (checkNext rest).calm = true := by
    rintro (_ | _) <;> rfl
  refine ⟨?_, avoids_calm ?_⟩
  · cases place with
    | setexnx =>
      unfold checker
      dsimp only
      split
      · split
        · exact ⟨rfl, rfl, id, id⟩
        · exact spares_same
      · exact spares_same
    | hangup first rest =>
      unfold checker
      dsimp only
      split
      · exact ⟨rfl, rfl, id, id⟩
      · exact spares_same
    | zrem first rest =>
      unfold checker
      dsimp only
      split
      · exact spares_zrem first
      · exact spares_same
    | _ => exact spares_same
  · unfold checker
    split <;> repeat' split
    all_goals first
      | rfl
      | exact next _

theorem step_spares {choice : Choice} (dead : Dead calls world channel)
    (joins : choice = .add_call → (calls pid).channel ≠ channel)
    (stepped : step calls pid choice world.shared (world.procs pid) = some (after, next)) :
    Spares channel world.shared after ∧ Avoids channel (calls pid) (world.procs pid) next := by
  have crashed : Spares channel world.shared world.shared ∧
      Avoids channel (calls pid) (world.procs pid) .idle := ⟨spares_same, nofun, nofun⟩
  unfold step at stepped
  split at stepped
  · rename_i other place marked keeping
    have different : other ≠ channel := by
      rintro rfl
      exact dead.untended (Or.inr ⟨pid, place, marked, keeping⟩)
    split at stepped
    · rename_i outcome
      have kept := @keeper_spares channel world.shared (world.procs pid) (calls pid) other different
        outcome marked place
      rwa [Option.some.inj stepped] at kept
    · cases stepped
      exact crashed
    · cases stepped
  · rename_i place checking
    split at stepped
    · rename_i outcome
      have checked := @checker_spares channel world.shared (world.procs pid) (calls pid) outcome place
      rwa [Option.some.inj stepped] at checked
    · cases stepped
      exact crashed
    · cases stepped
  · split at stepped
    · cases stepped
      exact crashed
    · exact caller_spares (dead.apart pid) joins (fun among => dead.untended (Or.inl among)) stepped

theorem hasMark_later {now : ℕ} (later : shared.now ≤ now)
    (unmarked : shared.hasMark channel = false) :
    Shared.hasMark channel { shared with now := now } = false := by
  unfold Shared.hasMark Expiring.read at unmarked ⊢
  cases left : Expiring.live now (shared.still_in_queue channel) with
  | none => rfl
  | some entry => simp [Expiring.live_earlier later left] at unmarked

theorem dead_moved (dead : Dead calls world channel) (spares : Spares channel world.shared after)
    (avoids : Avoids channel (calls pid) (world.procs pid) next) :
    Dead calls (world.moved pid after next) channel := by
  obtain ⟨unmarked, untended, apart⟩ := dead
  refine ⟨?_, ?_, ?_⟩
  · show (Expiring.read after.now (after.still_in_queue channel)).isSome = false
    rw [spares.marks, spares.now]
    exact unmarked
  · rintro (spawned | ⟨keeper, place, marked, keeping⟩)
    · exact untended (Or.inl (spares.spawned spawned))
    · by_cases own : keeper = pid
      · subst own
        rw [moved_same] at keeping
        obtain ⟨before, moment, kept⟩ := avoids.keeps place marked keeping
        exact untended (Or.inr ⟨keeper, before, moment, kept⟩)
      · rw [moved_other _ _ _ own] at keeping
        exact untended (Or.inr ⟨keeper, place, marked, keeping⟩)
  · exact all_moved (fun other stage => ∀ score, stage = Stage.adding score →
      (calls other).channel ≠ channel) avoids.adds fun other _ => apart other

theorem ahead_checkNext {rest : List String} (among : channel ∈ rest) :
    (checkNext rest).ahead channel := by
  cases rest with
  | nil => cases among
  | cons first rest => exact among

/-- A check that was to come to a dead call still is, or has taken it out. -/
theorem checker_ahead (place : Checking) (ahead : (Stage.checking place).ahead channel)
    (unmarked : shared.hasMark channel = false) :
    (checker shared .done place).2.ahead channel ∨ Gone (checker shared .done place).1 channel := by
  cases place with
  | setexnx => cases ahead
  | zrange =>
    cases found : shared.calls.entries.lookup channel with
    | none => exact Or.inr found
    | some score => exact Or.inl (ahead_checkNext (ScoredSet.mem_range.mpr ⟨score, found⟩))
  | is_hangup first rest =>
    left
    unfold checker
    dsimp only
    split <;> exact ahead
  | still_in_queue first rest =>
    left
    unfold checker
    dsimp only
    split
    · rename_i marked
      refine ahead_checkNext ((List.mem_cons.mp ahead).resolve_left ?_)
      rintro rfl
      simp [unmarked] at marked
    · exact ahead
  | hangup first rest => exact Or.inl ahead
  | zrem first rest =>
    by_cases here : channel = first
    · subst here
      right
      show (shared.calls.erase channel).entries.lookup channel = none
      rw [IndexMap.lookup_erase, if_pos rfl]
    · exact Or.inl (ahead_checkNext ((List.mem_cons.mp ahead).resolve_left here))

/-- A call that is dead does not hold up the line: the first check that begins then, and does not
    fail, takes it out, and it stays out. -/
theorem dead_call_removed (calls : ℕ → Call) (pid : ℕ) (channel : String)
    (first last : World Shared Stage) (dead : Dead calls first channel)
    (begins : first.procs pid = .checking .zrange)
    (run : Run (queue calls) (Checks calls pid channel) first last) :
    (last.procs pid).ahead channel ∨ Gone last.shared channel := by
  suffices both : Dead calls last channel ∧
      ((last.procs pid).ahead channel ∨ Gone last.shared channel) from both.2
  refine run_keeps (fun world => Dead calls world channel ∧
    ((world.procs pid).ahead channel ∨ Gone world.shared channel)) ⟨dead, ?_⟩ ?_ run
  · rw [begins]
    exact Or.inl trivial
  · rintro world action after ⟨dead, place⟩ ⟨succeeds, joins⟩ acted
    rcases act_cases acted with ⟨moving, choice, shared, stage, rfl, stepped, rfl⟩ |
      ⟨event, shared, rfl, happened, rfl⟩
    · obtain ⟨spares, avoids⟩ := step_spares dead (by rintro rfl; exact joins moving rfl) stepped
      refine ⟨dead_moved dead spares avoids, ?_⟩
      rcases place with ahead | gone
      · by_cases own : moving = pid
        · subst own
          rw [moved_same]
          cases checking : world.procs moving with
          | checking place =>
            have done := succeeds _ place rfl checking
            subst done
            rw [checking] at ahead stepped
            have next := checker_ahead place ahead dead.unmarked
            rwa [Option.some.inj stepped] at next
          | _ =>
            rw [checking] at ahead
            cases ahead
        · rw [moved_other _ _ _ (Ne.symm own)]
          exact Or.inl ahead
      · exact Or.inr (spares.gone gone)
    · obtain ⟨unmarked, untended, apart⟩ := dead
      cases event with
      | tick =>
        cases happened
        exact ⟨⟨hasMark_later (Nat.le_succ _) unmarked, untended, apart⟩, place⟩
      | hangup other =>
        cases happened
        exact ⟨⟨unmarked, untended, apart⟩, place⟩

/-- The servers of the first call are gone, a check of the second has begun. -/
def deserted : World Shared Stage where
  shared :=
    { now := 20
      calls := (IndexMap.empty.insert (nthCall 0).channel 0).insert (nthCall 1).channel 18
      check_lock := Expiring.writeUntil 21 ()
      still_in_queue := fun channel =>
        Expiring.writeUntil (if channel = (nthCall 0).channel then 15 else 33) ()
      hangup := fun _ => false
      spawned := [] }
  procs := fun pid => if pid = 1 then .waiting 1 else if pid = 2 then .checking .zrange else .idle

theorem dead_deserted : Dead nthCall deserted (nthCall 0).channel where
  unmarked := rfl
  untended := by
    rintro (spawned | ⟨keeper, place, marked, keeping⟩)
    · cases spawned
    · simp only [deserted] at keeping
      split at keeping
      · cases keeping
      · split at keeping <;> cases keeping
  apart := by
    intro pid score adding
    simp only [deserted] at adding
    split at adding
    · cases adding
    · split at adding <;> cases adding

def checksOnly (_ : World Shared Stage) : Action Choice Outside → Bool
  | .proc pid choice => pid == 2 && choice.succeeds
  | _ => false

theorem dead_call_removed_deserted : ∃ world : World Shared Stage, Gone world.shared (nthCall 0).channel ∧
    world.procs 2 = .idle ∧ world.shared.calls.entries = [((nthCall 1).channel, 18)] := by
  have ran : ∃ world, runWhere (queue nthCall) checksOnly deserted (commands 7 2) = some world ∧ world.procs 2 = .idle ∧
      world.shared.calls.entries = [((nthCall 1).channel, 18)] :=
    ⟨_, rfl, rfl, rfl⟩
  obtain ⟨world, ran, done, line⟩ := ran
  have run : Run (queue nthCall) (Checks nthCall 2 (nthCall 0).channel) deserted world := by
    refine run_of_runWhere (fun before action passed => ?_) (commands 7 2) ran
    cases action with
    | outside event => cases passed
    | proc pid choice =>
      have done := done_of_succeeds (Bool.and_eq_true_iff.mp passed).2
      subst done
      refine ⟨?_, nofun⟩
      rintro choice place ⟨⟩ _
      rfl
  have removed := dead_call_removed nthCall 2 (nthCall 0).channel deserted world dead_deserted rfl run
  rw [done] at removed
  exact ⟨world, removed.resolve_left id, done, line⟩

end Dead

end QueueLine
