import Nebula.Lib.Replication
import Nebula.Lib.Runs
import Nebula.Redis.Commands

/- One key in the zones of a pool, all of them active. A command runs in the zone that the
   key belongs to, and a task of its own runs it again in every other zone. -/
namespace ZoneConvergence
open RedisCommands Replication Runs

structure Entry where
  value : Value
  deadline : Option Nat

/-- A key that has run out is not there. -/
def look (now : Nat) (entry : Option Entry) : Option Value :=
  match entry with
  | some entry => if entry.deadline.all (now < ·) then some entry.value else none
  | none => none

def left (now : Nat) (entry : Option Entry) : Option Nat :=
  match entry with
  | some entry => if entry.deadline.all (now < ·) then entry.deadline else none
  | none => none

def setTtl (now : Nat) (entry : Option Entry) : Ttl → Option Nat
  | .keep => left now entry
  | .clear => none
  | .ends deadline => some deadline

/-- The key after a command on it. -/
def run (now : Nat) (command : Command) (entry : Option Entry) : Option Entry :=
  let effect := command.exec now (look now entry)
  effect.value.map fun value => ⟨value, setTtl now entry effect.ttl⟩

/-- The key in its zone and in the others, and the replication tasks still to run there. -/
structure Zones where
  now : Nat
  primary : Option Entry
  others : Copies Command (Option Entry)

/-- A query whose command has run a number of times without the reply coming back, with or
    without a last run that is answered; a replication task; time. -/
inductive Event where
  | query (command : Command) (lost : Nat) (answered : Bool)
  | task (zone i : Nat)
  | pass (ms : Nat)

def attempts (now : Nat) (command : Command) (entry : Option Entry) (times : Nat) :
    Option Entry :=
  (run now command)^[times] entry

/-- Whether the query is `Ok`: the last run is answered, with a reply that can be read. -/
def replicated (now : Nat) (command : Command) (entry : Option Entry) (answered : Bool) : Bool :=
  answered && command.readable (command.exec now (look now entry)).reply

/-- `do_query` runs out after 102 attempts. -/
def attempted (lost : Nat) (answered : Bool) : Bool :=
  if answered then decide (lost < 102) else decide (lost ≤ 102)

def zones (count : Nat) : Machine Zones Event
  | state, .query command lost answered =>
    if attempted lost answered then
      let before := attempts state.now command state.primary lost
      some { state with
        primary := if answered then run state.now command before else before
        others := if replicated state.now command before answered then
          state.others.push command else state.others }
    else none
  | state, .task zone i =>
    (Copies.takes (run state.now) count state.others (zone, i)).map fun others =>
      { state with others := others }
  | state, .pass ms => some { state with now := state.now + ms }

/-- All zones have the same entry of the key, or none. -/
def begun (now : Nat) (entry : Option Entry) : Zones :=
  ⟨now, entry, ⟨fun _ => entry, fun _ => []⟩⟩

/-- What a command makes of the value of a key. -/
def apply (now : Nat) (command : Command) (value : Option Value) : Option Value :=
  (command.exec now value).value

/-- With no task left, every zone has the value of the key's own zone. -/
def Converged (count : Nat) (state : Zones) : Prop :=
  (∀ zone < count, state.others.pending zone = []) →
    state.others.Agrees (look state.now) count (look state.now state.primary)

/-- A query leaves in its zone what one run of the command leaves if it is replicated, and
    what was there if it is not; a task that runs out of turn leaves what it leaves in turn;
    and time runs a key out only where the tasks that are left still make up for it. -/
def Guarded (count : Nat) : Guard Zones Event
  | state, .query command lost answered =>
    let before := attempts state.now command state.primary lost
    let value := look state.now state.primary
    count = 0 ∨ (apply state.now command)^[if answered then lost + 1 else lost] value =
      if replicated state.now command before answered then apply state.now command value else value
  | state, .task zone i => ∀ command, (state.others.pending zone)[i]? = some command →
      let value := look state.now (state.others.stored zone)
      replay (apply state.now) (apply state.now command value)
          ((state.others.pending zone).eraseIdx i) =
        replay (apply state.now) value (state.others.pending zone)
  | state, .pass ms => state.others.Leads (look (state.now + ms)) (apply (state.now + ms)) count
      (look (state.now + ms) state.primary)

/-- Every zone runs the tasks that it has left in order. -/
def settled (count : Nat) (state : Zones) : Zones :=
  { state with others := state.others.settled (run state.now) count }

def Led (count : Nat) (state : Zones) : Prop :=
  state.others.Leads (look state.now) (apply state.now) count (look state.now state.primary)

theorem left_ahead (now : Nat) (entry : Option Entry) :
    (left now entry).all (now < ·) = true := by
  unfold left
  split
  · split
    · assumption
    · rfl
  · rfl

theorem look_run (now : Nat) (command : Command) (entry : Option Entry) :
    look now (run now command entry) = apply now command (look now entry) := by
  have alive : (setTtl now entry (command.exec now (look now entry)).ttl).all (now < ·) = true := by
    have ahead := exec_ahead now (look now entry) command
    cases set : (command.exec now (look now entry)).ttl with
    | keep => exact left_ahead now entry
    | clear => rfl
    | ends deadline => exact decide_eq_true (ahead deadline set)
  unfold run apply
  dsimp only
  cases (command.exec now (look now entry)).value with
  | none => rfl
  | some value => exact if_pos alive

theorem look_attempts (now : Nat) (command : Command) (entry : Option Entry) (times : Nat) :
    look now (attempts now command entry times) = (apply now command)^[times] (look now entry) := by
  unfold attempts
  induction times with
  | zero => rfl
  | succ times ih => rw [Function.iterate_succ_apply', Function.iterate_succ_apply', look_run, ih]

theorem begun_led (count now : Nat) (entry : Option Entry) : Led count (begun now entry) :=
  fun _ _ => rfl

theorem query_led {count : Nat} {state after : Zones} (led : Led count state) {command : Command}
    {lost : Nat} {answered : Bool}
    (stepped : zones count state (.query command lost answered) = some after) :
    Guarded count state (.query command lost answered) ↔ Led count after := by
  obtain ⟨_, same⟩ := Option.ite_none_right_eq_some.mp stepped
  cases same
  have left : look state.now (if answered then
        run state.now command (attempts state.now command state.primary lost)
      else attempts state.now command state.primary lost) =
      (apply state.now command)^[if answered then lost + 1 else lost]
        (look state.now state.primary) := by
    cases answered with
    | false => exact look_attempts _ _ _ _
    | true =>
      exact (look_run _ _ _).trans ((congrArg _ (look_attempts _ _ _ _)).trans
        (Function.iterate_succ_apply' _ _ _).symm)
  unfold Led
  dsimp only
  rw [left]
  dsimp only [Guarded]
  by_cases sent : replicated state.now command (attempts state.now command state.primary lost)
      answered = true
  · rw [if_pos sent, if_pos sent]
    exact (Copies.leads_same (Copies.leads_push led command) _).symm
  · rw [if_neg sent, if_neg sent]
    exact (Copies.leads_same led _).symm

theorem task_led {count : Nat} {state after : Zones} (led : Led count state) {zone i : Nat}
    (stepped : zones count state (.task zone i) = some after) :
    Guarded count state (.task zone i) ↔ Led count after := by
  obtain ⟨others, taken, same⟩ := Option.map_eq_some_iff.mp stepped
  cases same
  obtain ⟨inside, took⟩ := Option.ite_none_right_eq_some.mp taken
  cases isTask : (state.others.pending zone)[i]? with
  | none =>
    unfold Copies.take at took
    rw [isTask] at took
    cases took
  | some command =>
    have exactly := Copies.leads_take led (look_run state.now) inside isTask took
    rw [show Led count { state with others := others } ↔ _ from exactly]
    constructor
    · exact fun guarded => guarded command isTask
    · intro same other isOther
      rw [isTask] at isOther
      cases isOther
      exact same

theorem step_led {count : Nat} {state after : Zones} {event : Event} (led : Led count state)
    (stepped : zones count state event = some after) :
    Guarded count state event ↔ Led count after := by
  cases event with
  | query command lost answered => exact query_led led stepped
  | task zone i => exact task_led led stepped
  | pass ms =>
    cases stepped
    exact Iff.rfl

theorem settled_reached (count : Nat) (state : Zones) :
    Reaches (zones count) state (settled count state) := by
  have each : ∀ others, Reaches (Copies.takes (run state.now) count) state.others others →
      Reaches (zones count) state { state with others := others } := by
    intro others reached
    induction reached with
    | start => exact Run.start
    | @next middle after event before _ taken ih =>
      have stepped : zones count { state with others := middle } (.task event.1 event.2) =
          some { state with others := after } := by
        dsimp only [zones]
        rw [taken]
        rfl
      exact Run.next ih trivial stepped
  exact each _ (Copies.settled_reached count state.others)

/-- In every run of guarded events the zones agree whenever no task is left, and a next event
    is guarded exactly if the zones agree once the tasks that it leaves have run in order. -/
theorem zones_converge (count now : Nat) (entry : Option Entry) (last : Zones)
    (guarded : Run (zones count) (Guarded count) (begun now entry) last) :
    Converged count last ∧ ∀ event after, zones count last event = some after →
      Reaches (zones count) after (settled count after) ∧
        (Guarded count last event ↔ Converged count (settled count after)) := by
  have led : Led count last := by
    apply run_keeps (Led count) (begun_led count now entry) _ guarded
    intro state event after led allowed stepped
    exact (step_led led stepped).mp allowed
  refine ⟨fun idle => Copies.agrees_of_leads led idle, ?_⟩
  intro event after stepped
  refine ⟨settled_reached count after, (step_led led stepped).trans ?_⟩
  have settles : Led count after ↔ _ := Copies.leads_iff_settled (look_run after.now)
  rw [settles]
  constructor
  · exact fun agrees _ => agrees
  · intro converged
    apply converged
    intro zone inside
    exact if_pos inside

/-- Whether an event is guarded, for runs that are tried out. -/
def guardedHere (count : Nat) (state : Zones) : Event → Bool
  | .query command lost answered =>
    let before := attempts state.now command state.primary lost
    let value := look state.now state.primary
    (apply state.now command)^[if answered then lost + 1 else lost] value ==
      if replicated state.now command before answered then apply state.now command value else value
  | .task zone i => (state.others.pending zone)[i]?.all fun command =>
    let value := look state.now (state.others.stored zone)
    replay (apply state.now) (apply state.now command value)
        ((state.others.pending zone).eraseIdx i) ==
      replay (apply state.now) value (state.others.pending zone)
  | .pass ms => (List.range count).all fun zone =>
    replay (apply (state.now + ms)) (look (state.now + ms) (state.others.stored zone))
      (state.others.pending zone) == look (state.now + ms) state.primary

theorem guarded_of_here (count : Nat) (state : Zones) (event : Event)
    (here : guardedHere count state event = true) : Guarded count state event := by
  cases event with
  | query command lost answered => exact Or.inr (beq_iff_eq.mp here)
  | task zone i =>
    intro command isTask
    dsimp only [guardedHere] at here
    rw [isTask] at here
    exact beq_iff_eq.mp here
  | pass ms =>
    intro zone inside
    exact beq_iff_eq.mp (List.all_eq_true.mp here zone (List.mem_range.mpr inside))

/-- Two members are added to a set, and the tasks of the other zone add them in reverse. -/
theorem zones_converge_members : ∃ last,
    runWhere (zones 1) (guardedHere 1) (begun 0 none)
      [.query (.sadd "a") 0 true, .query (.sadd "b") 1 true, .task 0 1, .task 0 0, .pass 5] =
        some last ∧
      look 5 (last.others.stored 0) = some (.set {"a", "b"}) ∧ Converged 1 last := by
  have ran : (runWhere (zones 1) (guardedHere 1) (begun 0 none)
      [.query (.sadd "a") 0 true, .query (.sadd "b") 1 true, .task 0 1, .task 0 0, .pass 5]).any
        (fun last => look 5 (last.others.stored 0) == some (.set {"a", "b"})) = true := by
    decide +kernel
  obtain ⟨last, took, both⟩ := (Option.any_eq_true _ _).mp ran
  exact ⟨last, took, beq_iff_eq.mp both,
    (zones_converge 1 0 none last (run_of_runWhere (guarded_of_here 1) _ took)).1⟩

/-- Two values are set one after the other, and the tasks of the other zone run in reverse. -/
theorem older_value_left : ¬ ∀ count now entry last,
    Reaches (zones count) (begun now entry) last → Converged count last := by
  intro converged
  have ran : (runAll (zones 1) (begun 0 none)
      [.query (.set "1") 0 true, .query (.set "2") 0 true, .task 0 1, .task 0 0]).any
        (fun last => (last.others.pending 0).isEmpty &&
          look last.now (last.others.stored 0) == some (.string "1") &&
            look last.now last.primary == some (.string "2")) = true := by
    decide +kernel
  obtain ⟨last, took, parted⟩ := (Option.any_eq_true _ _).mp ran
  obtain ⟨rest, newer⟩ := Bool.and_eq_true_iff.mp parted
  obtain ⟨idle, older⟩ := Bool.and_eq_true_iff.mp rest
  have agreed := converged 1 0 none last (reaches_of_runAll _ took) (by
    intro zone inside
    obtain rfl : zone = 0 := by omega
    exact List.isEmpty_iff.mp idle) 0 (by decide)
  rw [beq_iff_eq.mp older, beq_iff_eq.mp newer] at agreed
  exact absurd agreed (by decide)

end ZoneConvergence
