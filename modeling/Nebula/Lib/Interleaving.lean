import Mathlib.Logic.Function.Basic

/- Processes over a shared state. One action moves one process and the shared
   state in one atomic step, or is a step of their surroundings. A run may be
   restricted by a guard on the state before each action. -/
namespace Interleaving
variable {Shared Proc Choice Outside Item : Type}

structure System (Shared Proc Choice Outside : Type) where
  step : Nat → Choice → Shared → Proc → Option (Shared × Proc)
  outside : Outside → Shared → Option Shared

structure World (Shared Proc : Type) where
  shared : Shared
  procs : Nat → Proc

inductive Action (Choice Outside : Type) where
  | proc (pid : Nat) (choice : Choice)
  | outside (event : Outside)

def World.moved (world : World Shared Proc) (pid : Nat) (shared : Shared) (proc : Proc) :
    World Shared Proc :=
  ⟨shared, Function.update world.procs pid proc⟩

def act (system : System Shared Proc Choice Outside) (world : World Shared Proc) :
    Action Choice Outside → Option (World Shared Proc)
  | .proc pid choice =>
    match system.step pid choice world.shared (world.procs pid) with
    | some (shared, proc) => some (world.moved pid shared proc)
    | none => none
  | .outside event =>
    match system.outside event world.shared with
    | some shared => some ⟨shared, world.procs⟩
    | none => none

abbrev Guard (Shared Proc Choice Outside : Type) :=
  World Shared Proc → Action Choice Outside → Prop

inductive Run (system : System Shared Proc Choice Outside)
    (guard : Guard Shared Proc Choice Outside) (first : World Shared Proc) :
    World Shared Proc → Prop where
  | start : Run system guard first first
  | next {world after : World Shared Proc} {action : Action Choice Outside} :
    Run system guard first world → guard world action → act system world action = some after →
      Run system guard first after

def runAll (system : System Shared Proc Choice Outside) (world : World Shared Proc) :
    List (Action Choice Outside) → Option (World Shared Proc)
  | [] => some world
  | action :: rest =>
    match act system world action with
    | some after => runAll system after rest
    | none => none

@[simp] theorem moved_shared (world : World Shared Proc) (pid : Nat) (shared : Shared)
    (proc : Proc) : (world.moved pid shared proc).shared = shared := rfl

@[simp] theorem moved_same (world : World Shared Proc) (pid : Nat) (shared : Shared)
    (proc : Proc) : (world.moved pid shared proc).procs pid = proc := by
  simp [World.moved]

theorem moved_other (world : World Shared Proc) {pid other : Nat} (shared : Shared) (proc : Proc)
    (different : other ≠ pid) : (world.moved pid shared proc).procs other = world.procs other := by
  simp [World.moved, Function.update_of_ne different]

/-- After a step all processes are where its process has come to, and where the others were. -/
theorem all_moved (holds : Nat → Proc → Prop) {world : World Shared Proc} {pid : Nat}
    {shared : Shared} {proc : Proc} (own : holds pid proc)
    (others : ∀ other, other ≠ pid → holds other (world.procs other)) (other : Nat) :
    holds other ((world.moved pid shared proc).procs other) := by
  by_cases same : other = pid
  · subst same
    rwa [moved_same]
  · rw [moved_other _ _ _ same]
    exact others other same

theorem act_proc {system : System Shared Proc Choice Outside} {world : World Shared Proc}
    {pid : Nat} {choice : Choice} {shared : Shared} {proc : Proc}
    (stepped : system.step pid choice world.shared (world.procs pid) = some (shared, proc)) :
    act system world (.proc pid choice) = some (world.moved pid shared proc) := by
  simp only [act, stepped]

theorem act_outside {system : System Shared Proc Choice Outside} {world : World Shared Proc}
    {event : Outside} {shared : Shared}
    (happened : system.outside event world.shared = some shared) :
    act system world (.outside event) = some ⟨shared, world.procs⟩ := by
  simp only [act, happened]

/-- An action is one step of one process or one step of the surroundings. -/
theorem act_cases {system : System Shared Proc Choice Outside} {world after : World Shared Proc}
    {action : Action Choice Outside} (acted : act system world action = some after) :
    (∃ pid choice shared proc, action = .proc pid choice ∧
        system.step pid choice world.shared (world.procs pid) = some (shared, proc) ∧
        after = world.moved pid shared proc) ∨
      ∃ event shared, action = .outside event ∧
        system.outside event world.shared = some shared ∧ after = ⟨shared, world.procs⟩ := by
  cases action with
  | proc pid choice =>
    left
    simp only [act] at acted
    cases stepped : system.step pid choice world.shared (world.procs pid) with
    | none =>
      rw [stepped] at acted
      cases acted
    | some result =>
      rw [stepped] at acted
      exact ⟨pid, choice, result.1, result.2, rfl, stepped, (Option.some.inj acted).symm⟩
  | outside event =>
    right
    simp only [act] at acted
    cases stepped : system.outside event world.shared with
    | none =>
      rw [stepped] at acted
      cases acted
    | some shared =>
      rw [stepped] at acted
      exact ⟨event, shared, rfl, stepped, (Option.some.inj acted).symm⟩

theorem run_trans {system : System Shared Proc Choice Outside}
    {guard : Guard Shared Proc Choice Outside} {first middle last : World Shared Proc}
    (before : Run system guard first middle) (after : Run system guard middle last) :
    Run system guard first last := by
  induction after with
  | start => exact before
  | next _ allowed acted ih => exact Run.next ih allowed acted

theorem run_of_runAll {system : System Shared Proc Choice Outside}
    (actions : List (Action Choice Outside)) : ∀ {first last : World Shared Proc},
      runAll system first actions = some last → Run system (fun _ _ => True) first last := by
  induction actions with
  | nil =>
    intro first last same
    cases same
    exact Run.start
  | cons action rest ih =>
    intro first last ran
    unfold runAll at ran
    split at ran
    · rename_i after acted
      exact run_trans (Run.next Run.start trivial acted) (ih ran)
    · cases ran

/-- Takes the actions as long as each passes a check. -/
def runWhere (system : System Shared Proc Choice Outside)
    (check : World Shared Proc → Action Choice Outside → Bool) (world : World Shared Proc) :
    List (Action Choice Outside) → Option (World Shared Proc)
  | [] => some world
  | action :: rest =>
    match check world action, act system world action with
    | true, some after => runWhere system check after rest
    | _, _ => none

theorem runAll_of_runWhere {system : System Shared Proc Choice Outside}
    {check : World Shared Proc → Action Choice Outside → Bool} (actions : List (Action Choice Outside)) :
    ∀ {first last : World Shared Proc}, runWhere system check first actions = some last →
      runAll system first actions = some last := by
  induction actions with
  | nil => exact fun ran => ran
  | cons action rest ih =>
    intro first last ran
    unfold runWhere at ran
    unfold runAll
    split at ran
    · rename_i after _ acted
      rw [acted]
      exact ih ran
    · cases ran

/-- A process that none of the actions moves is where it was. -/
theorem runAll_still {system : System Shared Proc Choice Outside} {pid : Nat}
    (actions : List (Action Choice Outside)) : ∀ {first last : World Shared Proc},
      (∀ action ∈ actions, ∀ choice, action ≠ .proc pid choice) →
        runAll system first actions = some last → last.procs pid = first.procs pid := by
  induction actions with
  | nil =>
    intro first last _ ran
    cases ran
    rfl
  | cons action rest ih =>
    intro first last still ran
    unfold runAll at ran
    split at ran
    · rename_i after acted
      rw [ih (fun other listed => still other (List.mem_cons_of_mem _ listed)) ran]
      rcases act_cases acted with ⟨moving, choice, shared, proc, rfl, _, rfl⟩ |
        ⟨event, shared, rfl, _, rfl⟩
      · apply moved_other
        rintro rfl
        exact still _ List.mem_cons_self choice rfl
      · rfl
    · cases ran

theorem run_of_runWhere {system : System Shared Proc Choice Outside}
    {guard : Guard Shared Proc Choice Outside}
    {check : World Shared Proc → Action Choice Outside → Bool}
    (sound : ∀ world action, check world action = true → guard world action)
    (actions : List (Action Choice Outside)) : ∀ {first last : World Shared Proc},
      runWhere system check first actions = some last → Run system guard first last := by
  induction actions with
  | nil =>
    intro first last same
    cases same
    exact Run.start
  | cons action rest ih =>
    intro first last ran
    unfold runWhere at ran
    split at ran
    · rename_i after passed acted
      exact run_trans (Run.next Run.start (sound first action passed) acted) (ih ran)
    · cases ran

/-- The same where a check is sound only for worlds that the checked actions do not leave. -/
theorem run_of_runWhere_within {system : System Shared Proc Choice Outside}
    {guard : Guard Shared Proc Choice Outside}
    {check : World Shared Proc → Action Choice Outside → Bool} (Inside : World Shared Proc → Prop)
    (sound : ∀ world action, Inside world → check world action = true → guard world action)
    (stays : ∀ world action after, Inside world → check world action = true →
      act system world action = some after → Inside after)
    (actions : List (Action Choice Outside)) : ∀ {first last : World Shared Proc},
      Inside first → runWhere system check first actions = some last →
        Run system guard first last := by
  induction actions with
  | nil =>
    intro first last _ same
    cases same
    exact Run.start
  | cons action rest ih =>
    intro first last inside ran
    unfold runWhere at ran
    split at ran
    · rename_i after passed acted
      exact run_trans (Run.next Run.start (sound first action inside passed) acted)
        (ih (stays first action after inside passed acted) ran)
    · cases ran

/-- Processes from a bound on stay as they are where a check lets none of them move. -/
theorem silent_from {system : System Shared Proc Choice Outside}
    {check : World Shared Proc → Action Choice Outside → Bool} {bound : Nat} (quiet : Proc → Prop)
    (below : ∀ world pid choice, check world (.proc pid choice) = true → pid < bound)
    {world after : World Shared Proc} {action : Action Choice Outside}
    (silent : ∀ pid, bound ≤ pid → quiet (world.procs pid)) (passed : check world action = true)
    (acted : act system world action = some after) :
    ∀ pid, bound ≤ pid → quiet (after.procs pid) := by
  rcases act_cases acted with ⟨moving, choice, shared, proc, rfl, _, rfl⟩ | ⟨event, shared, rfl, _, rfl⟩
  · intro pid far
    have near := below world moving choice passed
    rw [moved_other _ _ _ (by omega)]
    exact silent pid far
  · exact silent

/-- What every allowed action keeps holds in every state of a run. -/
theorem run_keeps {system : System Shared Proc Choice Outside}
    {guard : Guard Shared Proc Choice Outside} {first last : World Shared Proc}
    (Holds : World Shared Proc → Prop) (atFirst : Holds first)
    (kept : ∀ world action after, Holds world → guard world action →
      act system world action = some after → Holds after)
    (run : Run system guard first last) : Holds last := by
  induction run with
  | start => exact atFirst
  | next _ allowed acted ih => exact kept _ _ _ ih allowed acted

/- A proof outline in the way of Owicki and Gries: what holds of the shared state,
   what each process knows of it where it stands, and which two places are never
   taken at the same time. -/
structure Outline (Shared Proc : Type) where
  whole : Shared → Prop
  known : Shared → Proc → Prop
  apart : Proc → Proc → Prop

structure Outline.Holds (outline : Outline Shared Proc) (world : World Shared Proc) : Prop where
  whole : outline.whole world.shared
  known : ∀ pid, outline.known world.shared (world.procs pid)
  apart : ∀ pid other, pid ≠ other → outline.apart (world.procs pid) (world.procs other)

/-- A step that keeps the outline: the process arrives where it says, what the
    others know is not disturbed, and the new place is free. -/
structure Outline.Keeps (outline : Outline Shared Proc) (world : World Shared Proc) (pid : Nat)
    (shared : Shared) (proc : Proc) : Prop where
  whole : outline.whole shared
  known : outline.known shared proc
  undisturbed : ∀ other, other ≠ pid → outline.known shared (world.procs other)
  free : ∀ other, other ≠ pid → outline.apart proc (world.procs other)

theorem Outline.holds_moved {outline : Outline Shared Proc}
    (symmetric : ∀ proc other, outline.apart proc other → outline.apart other proc)
    {world : World Shared Proc} {pid : Nat} {shared : Shared} {proc : Proc}
    (holds : outline.Holds world) (keeps : outline.Keeps world pid shared proc) :
    outline.Holds (world.moved pid shared proc) := by
  constructor
  · exact keeps.whole
  · exact all_moved (fun _ => outline.known shared) keeps.known keeps.undisturbed
  · intro left right different
    by_cases isLeft : left = pid
    · subst isLeft
      rw [moved_same, moved_other _ _ _ (Ne.symm different)]
      exact keeps.free right (Ne.symm different)
    · by_cases isRight : right = pid
      · subst isRight
        rw [moved_same, moved_other _ _ _ isLeft]
        exact symmetric _ _ (keeps.free left isLeft)
      · rw [moved_other _ _ _ isLeft, moved_other _ _ _ isRight]
        exact holds.apart left right different

/-- The outline rule: one condition for each step of a process and one for each
    step of the surroundings. -/
theorem Outline.run_holds {outline : Outline Shared Proc}
    {system : System Shared Proc Choice Outside} {guard : Guard Shared Proc Choice Outside}
    {first last : World Shared Proc}
    (symmetric : ∀ proc other, outline.apart proc other → outline.apart other proc)
    (atFirst : outline.Holds first)
    (steps : ∀ world pid choice shared proc, outline.Holds world → guard world (.proc pid choice) →
      system.step pid choice world.shared (world.procs pid) = some (shared, proc) →
        outline.Keeps world pid shared proc)
    (around : ∀ world event shared, outline.Holds world → guard world (.outside event) →
      system.outside event world.shared = some shared → outline.Holds ⟨shared, world.procs⟩)
    (run : Run system guard first last) : outline.Holds last := by
  apply run_keeps outline.Holds atFirst _ run
  intro world action after holds allowed acted
  rcases act_cases acted with ⟨pid, choice, shared, proc, rfl, stepped, rfl⟩ |
    ⟨event, shared, rfl, stepped, rfl⟩
  · exact outline.holds_moved symmetric holds (steps _ _ _ _ _ holds allowed stepped)
  · exact around _ _ _ holds allowed stepped

/-- Some process still has the task to do. -/
def Pending (carries : Proc → Item → Prop) (world : World Shared Proc) (item : Item) : Prop :=
  ∃ pid, carries (world.procs pid) item

theorem pending_moved {carries : Proc → Item → Prop} {world : World Shared Proc} {pid : Nat}
    {shared : Shared} {proc : Proc} {item : Item} (carried : carries proc item) :
    Pending carries (world.moved pid shared proc) item := by
  refine ⟨pid, ?_⟩
  rw [moved_same]
  exact carried

/-- A step loses no task but those of the process that takes it. -/
theorem pending_cases {carries : Proc → Item → Prop} {world : World Shared Proc} {item : Item}
    (pid : Nat) (shared : Shared) (proc : Proc) (pending : Pending carries world item) :
    carries (world.procs pid) item ∨ Pending carries (world.moved pid shared proc) item := by
  obtain ⟨other, carried⟩ := pending
  by_cases same : other = pid
  · subst same
    exact Or.inl carried
  · right
    refine ⟨other, ?_⟩
    rw [moved_other _ _ _ same]
    exact carried

end Interleaving
