import Mathlib.Data.Finset.Card
import Nebula.Lib.Interleaving

/- The rooms that the ticker goes through, and the members of one of them. Every command to Redis
   is a step of its own; one that fails may still have been carried out. -/
namespace RoomRegistry
open Interleaving

section Model

/-- nebula:all_rooms and nebula:room:{room}:members -/
structure Shared where
  all_rooms : Finset String
  members : Finset String

inductive Operation where
  | join_room (channel : String)
  | sip_join_room (channel : String)
  | leave_room (channel : String)
  | tick

/-- The command that an operation has come to. The last three are those of more than one
    operation. -/
inductive Stage where
  | idle
  | join_room (channel : String)
  | sip_join_room (channel : String)
  | leave_room (channel : String)
  | leaving (channel : String)
  | registering
  | counting
  | unregistering
  deriving DecidableEq

inductive Choice where
  | start (operation : Operation)
  | command (carried_out confirmed : Bool)

variable (room : String) (shared : Shared)

def Shared.join (channel : String) : Shared :=
  { shared with members := insert channel shared.members }

def Shared.leave (channel : String) : Shared :=
  { shared with members := shared.members.erase channel }

def Shared.register : Shared :=
  { shared with all_rooms := insert room shared.all_rooms }

def Shared.unregister : Shared :=
  { shared with all_rooms := shared.all_rooms.erase room }

/-- A tick goes on with a room that the scan has found. -/
def begin : Operation → Option Stage
  | .join_room channel => some (.join_room channel)
  | .sip_join_room channel => some (.sip_join_room channel)
  | .leave_room channel => some (.leave_room channel)
  | .tick => if room ∈ shared.all_rooms then some .counting else none

/-- Only the first command of join_room and of leave_room ends the operation as it fails, and
    members that cannot be counted are none. -/
def command (carried_out confirmed : Bool) : Stage → Option (Shared × Stage)
  | .idle => none
  | .join_room channel =>
    some (if carried_out then shared.join channel else shared,
      if confirmed then .registering else .idle)
  | .sip_join_room channel =>
    some (if carried_out then shared.join channel else shared, .registering)
  | .leave_room channel =>
    some (shared, if confirmed && channel ∈ shared.members then .leaving channel else .idle)
  | .leaving channel => some (if carried_out then shared.leave channel else shared, .counting)
  | .registering => some (if carried_out then shared.register room else shared, .idle)
  | .counting =>
    some (shared, if (if confirmed then shared.members.card else 0) = 0 then .unregistering
      else .idle)
  | .unregistering => some (if carried_out then shared.unregister room else shared, .idle)

def step : Choice → Stage → Option (Shared × Stage)
  | .start operation, .idle => (begin room shared operation).map (shared, ·)
  | .start _, _ => none
  | .command carried_out confirmed, stage => command room shared carried_out confirmed stage

def registry : System Shared Stage Choice Empty where
  step := fun _ choice shared stage => step room shared choice stage
  outside := nofun

def start : World Shared Stage := ⟨⟨∅, ∅⟩, fun _ => .idle⟩

end Model

section Claimed

def Calm (world : World Shared Stage) : Prop := ∀ pid, world.procs pid = .idle

def Right (room : String) (shared : Shared) : Prop :=
  room ∈ shared.all_rooms ↔ shared.members.Nonempty

/-- What an operation will still do to the registry. -/
inductive Duty where
  | register
  | unregister
  deriving DecidableEq

def Stage.duty : Stage → Option Duty
  | .registering => some .register
  | .counting | .unregistering => some .unregister
  | _ => none

abbrev Due (world : World Shared Stage) (duty : Duty) : Prop :=
  Pending (fun (stage : Stage) duty => stage.duty = some duty) world duty

/-- A room is registered while it has members, or one who has left will see to it, and taken out
    while it has none, or one who has joined will see to it; the two writes are not lost, and a
    join that stops has added no member. -/
def Timely : Guard Shared Stage Choice Empty := fun world action =>
  match action with
  | .proc pid (.command carried_out confirmed) =>
    match world.procs pid with
    | .join_room _ => carried_out → confirmed
    | .registering => carried_out ∧ (world.shared.members.Nonempty ∨ Due world .unregister)
    | .unregistering => carried_out ∧ (world.shared.members = ∅ ∨ Due world .register)
    | _ => True
  | _ => True

end Claimed

section Invariant
variable {room : String} {world : World Shared Stage} {pid : Nat} {shared : Shared} {stage : Stage}

structure Kept (room : String) (world : World Shared Stage) : Prop where
  joined : world.shared.members.Nonempty → room ∈ world.shared.all_rooms ∨ Due world .register
  left : room ∈ world.shared.all_rooms → world.shared.members.Nonempty ∨ Due world .unregister

theorem start_kept : Kept room start where
  joined := fun some => absurd some Finset.not_nonempty_empty
  left := fun listed => absurd listed (Finset.notMem_empty room)

/-- What is due stays due unless the operation that moves has done it. -/
theorem due_moved {duty : Duty} (due : Due world duty)
    (other : (world.procs pid).duty ≠ some duty) : Due (world.moved pid shared stage) duty := by
  rcases pending_cases pid shared stage due with own | still
  · exact absurd own other
  · exact still

/-- An operation that leaves the keys as they are, and has nothing more to do with them. -/
theorem kept_aside (kept : Kept room world) (idle : (world.procs pid).duty = none) :
    Kept room (world.moved pid world.shared stage) := by
  have still : ∀ duty, Due world duty → Due (world.moved pid world.shared stage) duty := by
    intro duty due
    apply due_moved due
    rw [idle]
    nofun
  exact ⟨fun some => (kept.joined some).imp_right (still _),
    fun listed => (kept.left listed).imp_right (still _)⟩

theorem kept_joined (channel : String) :
    Kept room (world.moved pid (world.shared.join channel) .registering) where
  joined := fun _ => Or.inr (pending_moved rfl)
  left := fun _ => Or.inl (Finset.insert_nonempty _ _)

theorem kept_registered (before : world.procs pid = .registering)
    (timely : world.shared.members.Nonempty ∨ Due world .unregister) :
    Kept room (world.moved pid (world.shared.register room) .idle) where
  joined := fun _ => Or.inl (Finset.mem_insert_self _ _)
  left := fun _ => timely.imp_right fun due => due_moved due (by rw [before]; nofun)

theorem kept_removed (kept : Kept room world) (channel : String)
    (before : (world.procs pid).duty = none) :
    Kept room (world.moved pid (world.shared.leave channel) .counting) where
  joined := by
    rintro ⟨member, among⟩
    have some : world.shared.members.Nonempty := ⟨member, Finset.mem_of_mem_erase among⟩
    exact (kept.joined some).imp_right fun due => due_moved due (by rw [before]; nofun)
  left := fun _ => Or.inr (pending_moved rfl)

/-- Members that were counted are there, and others will be looked for again. -/
theorem kept_counted (kept : Kept room world) (before : world.procs pid = .counting)
    (after : stage.duty = some .unregister ∨ stage.duty = none ∧ world.shared.members.Nonempty) :
    Kept room (world.moved pid world.shared stage) where
  joined := fun some => (kept.joined some).imp_right fun due =>
    due_moved due (by rw [before]; nofun)
  left := by
    intro _
    rcases after with due | ⟨_, some⟩
    · exact Or.inr (pending_moved due)
    · exact Or.inl some

theorem kept_unregistered (before : world.procs pid = .unregistering)
    (timely : world.shared.members = ∅ ∨ Due world .register) :
    Kept room (world.moved pid (world.shared.unregister room) .idle) where
  joined := by
    intro some
    rcases timely with none | due
    · exact absurd none some.ne_empty
    · exact Or.inr (due_moved due (by rw [before]; nofun))
  left := fun listed => absurd listed (Finset.notMem_erase _ _)

theorem command_kept (kept : Kept room world) {carried_out confirmed : Bool}
    (timely : Timely world (.proc pid (.command carried_out confirmed)))
    (done : command room world.shared carried_out confirmed (world.procs pid) =
      some (shared, stage)) : Kept room (world.moved pid shared stage) := by
  simp only [Timely] at timely
  cases before : world.procs pid with
  | idle =>
    rw [before] at done
    cases done
  | join_room channel =>
    rw [before] at done timely
    cases done
    cases carried_out with
    | true =>
      rw [if_pos rfl, if_pos (timely rfl)]
      exact kept_joined channel
    | false => exact kept_aside kept (by rw [before]; rfl)
  | sip_join_room channel =>
    rw [before] at done
    cases done
    cases carried_out with
    | true => exact kept_joined channel
    | false => exact kept_aside kept (by rw [before]; rfl)
  | leave_room channel =>
    rw [before] at done
    cases done
    exact kept_aside kept (by rw [before]; rfl)
  | leaving channel =>
    rw [before] at done
    cases done
    cases carried_out with
    | true => exact kept_removed kept channel (by rw [before]; rfl)
    | false => exact kept_aside kept (by rw [before]; rfl)
  | registering =>
    rw [before] at done timely
    cases done
    obtain ⟨rfl, members⟩ := timely
    exact kept_registered before members
  | counting =>
    rw [before] at done
    cases done
    apply kept_counted kept before
    cases confirmed with
    | false => exact Or.inl rfl
    | true =>
      rw [if_pos rfl]
      by_cases none : world.shared.members.card = 0
      · rw [if_pos none]
        exact Or.inl rfl
      · rw [if_neg none]
        exact Or.inr ⟨rfl, Finset.card_ne_zero.mp none⟩
  | unregistering =>
    rw [before] at done timely
    cases done
    obtain ⟨rfl, members⟩ := timely
    exact kept_unregistered before members

theorem step_kept (kept : Kept room world) {choice : Choice}
    (timely : Timely world (.proc pid choice))
    (stepped : step room world.shared choice (world.procs pid) = some (shared, stage)) :
    Kept room (world.moved pid shared stage) := by
  cases choice with
  | start operation =>
    cases before : world.procs pid with
    | idle =>
      rw [before] at stepped
      obtain ⟨begun, _, same⟩ := Option.map_eq_some_iff.mp stepped
      cases same
      exact kept_aside kept (by rw [before]; rfl)
    | _ =>
      rw [before] at stepped
      cases stepped
  | command carried_out confirmed => exact command_kept kept timely stepped

end Invariant

section Runs

/-- Where no join comes between a count of no members and the removal of the room, and no leave
    between the two commands of the join, the registry is right when nothing is going on. -/
theorem registry_right (room : String) (world : World Shared Stage)
    (run : Run (registry room) Timely start world) (calm : Calm world) :
    Right room world.shared := by
  have kept : Kept room world := by
    refine run_keeps (Kept room) start_kept (fun before action after kept timely acted => ?_) run
    rcases act_cases acted with ⟨pid, choice, shared, stage, rfl, stepped, rfl⟩ | ⟨event, _⟩
    · exact step_kept kept timely stepped
    · cases event
  have nothing : ∀ duty, ¬Due world duty := by
    rintro duty ⟨pid, due⟩
    rw [calm pid] at due
    cases due
  constructor
  · exact fun listed => (kept.left listed).resolve_right (nothing _)
  · exact fun some => (kept.joined some).resolve_right (nothing _)

def commands (count pid : Nat) : List (Action Choice Empty) :=
  List.replicate count (.proc pid (.command true true))

theorem calm_of_ran {room : String} {actions : List (Action Choice Empty)}
    {world : World Shared Stage} (ran : runAll (registry room) start actions = some world)
    (two : ∀ action ∈ actions, ∀ pid choice, action = .proc pid choice → pid = 0 ∨ pid = 1)
    (first : world.procs 0 = .idle) (second : world.procs 1 = .idle) : Calm world := by
  intro pid
  by_cases moves : pid = 0 ∨ pid = 1
  · rcases moves with rfl | rfl
    · exact first
    · exact second
  · refine (runAll_still actions (fun action listed choice same => ?_) ran).trans rfl
    exact moves (two action listed pid choice same)

def inTime (world : World Shared Stage) : Action Choice Empty → Bool
  | .proc pid (.command carried_out confirmed) =>
    match world.procs pid with
    | .join_room _ => confirmed
    | .registering => carried_out && world.shared.members.card != 0
    | .unregistering => carried_out && world.shared.members.card == 0
    | _ => true
  | _ => true

theorem inTime_timely (world : World Shared Stage) (action : Action Choice Empty)
    (passed : inTime world action = true) : Timely world action := by
  cases action with
  | outside event => cases event
  | proc pid choice =>
    cases choice with
    | start operation => trivial
    | command carried_out confirmed =>
      simp only [inTime] at passed
      simp only [Timely]
      split at passed <;> simp_all [Finset.nonempty_iff_ne_empty]

/-- One leaves as another joins, who is there before the members are counted. -/
def handOver : List (Action Choice Empty) :=
  .proc 0 (.start (.join_room "first")) :: commands 2 0 ++
    .proc 0 (.start (.leave_room "first")) :: commands 1 0 ++
    .proc 1 (.start (.sip_join_room "second")) :: commands 1 1 ++ commands 2 0 ++ commands 1 1

theorem registry_right_handOver : ∃ world, Right "room" world.shared ∧ Calm world ∧
    world.shared.members = {"second"} := by
  have ran : ∃ world, runWhere (registry "room") inTime start handOver = some world ∧
      world.procs 0 = .idle ∧ world.procs 1 = .idle ∧ world.shared.members = {"second"} :=
    ⟨_, rfl, rfl, rfl, by decide⟩
  obtain ⟨world, ran, first, second, members⟩ := ran
  have all := runAll_of_runWhere handOver ran
  have calm := calm_of_ran all (by simp [handOver, commands]) first second
  have run := run_of_runWhere inTime_timely handOver ran
  exact ⟨world, registry_right "room" world run calm, calm, members⟩

/-- The last member has left and the members are counted, then another joins. -/
def lateJoin : List (Action Choice Empty) :=
  .proc 0 (.start (.join_room "first")) :: commands 2 0 ++
    .proc 0 (.start (.leave_room "first")) :: commands 3 0 ++
    .proc 1 (.start (.join_room "second")) :: commands 2 1 ++ commands 1 0

/-- The room is taken out of the registry with its new member. -/
theorem room_forgotten : ¬∀ (room : String) (world : World Shared Stage),
    Run (registry room) (fun _ _ => True) start world → Calm world → Right room world.shared := by
  intro always
  have ran : ∃ world, runAll (registry "room") start lateJoin = some world ∧
      world.procs 0 = .idle ∧ world.procs 1 = .idle ∧ "second" ∈ world.shared.members ∧
      "room" ∉ world.shared.all_rooms :=
    ⟨_, rfl, rfl, rfl, by decide, by decide⟩
  obtain ⟨world, ran, first, second, member, forgotten⟩ := ran
  have calm := calm_of_ran ran (by simp [lateJoin, commands]) first second
  have right := always "room" world (run_of_runAll lateJoin ran) calm
  exact forgotten (right.mpr ⟨_, member⟩)

end Runs

end RoomRegistry
