/- Runs of a machine that takes one event after another. A run may be restricted
   by a guard on the state before each event. -/
namespace Runs
variable {State Event : Type}

abbrev Machine (State Event : Type) := State → Event → Option State

abbrev Guard (State Event : Type) := State → Event → Prop

inductive Run (machine : Machine State Event) (guard : Guard State Event) (first : State) :
    State → Prop where
  | start : Run machine guard first first
  | next {state after : State} {event : Event} : Run machine guard first state →
      guard state event → machine state event = some after → Run machine guard first after

abbrev Reaches (machine : Machine State Event) : State → State → Prop :=
  Run machine (fun _ _ => True)

def runAll (machine : Machine State Event) (state : State) : List Event → Option State
  | [] => some state
  | event :: rest =>
    match machine state event with
    | some after => runAll machine after rest
    | none => none

theorem run_trans {machine : Machine State Event} {guard : Guard State Event}
    {first middle last : State} (before : Run machine guard first middle)
    (after : Run machine guard middle last) : Run machine guard first last := by
  induction after with
  | start => exact before
  | next _ allowed stepped ih => exact Run.next ih allowed stepped

/-- What every allowed event keeps holds in every state of a run. -/
theorem run_keeps {machine : Machine State Event} {guard : Guard State Event}
    {first last : State} (Holds : State → Prop) (atFirst : Holds first)
    (kept : ∀ state event after, Holds state → guard state event →
      machine state event = some after → Holds after)
    (run : Run machine guard first last) : Holds last := by
  induction run with
  | start => exact atFirst
  | next _ allowed stepped ih => exact kept _ _ _ ih allowed stepped

/-- Where every event does alike to states that are alike, so does every run. -/
theorem run_matched {machine : Machine State Event} (Alike : State → State → Prop)
    (each : ∀ state other event after, Alike state other → machine state event = some after →
      ∃ otherAfter, machine other event = some otherAfter ∧ Alike after otherAfter)
    {first last other : State} (run : Reaches machine first last) (alike : Alike first other) :
    ∃ otherLast, Reaches machine other otherLast ∧ Alike last otherLast := by
  induction run with
  | start => exact ⟨other, Run.start, alike⟩
  | next _ _ stepped ih =>
    obtain ⟨middle, before, same⟩ := ih
    obtain ⟨otherLast, otherStepped, sameAfter⟩ := each _ _ _ _ same stepped
    exact ⟨otherLast, Run.next before trivial otherStepped, sameAfter⟩

/-- A run that comes round to a state ahead of its first can be repeated, and is farther
    ahead each time. -/
theorem run_repeats {machine : Machine State Event} (Ahead : Nat → State → State → Prop)
    (each : ∀ more state other event after, Ahead more state other →
      machine state event = some after →
      ∃ otherAfter, machine other event = some otherAfter ∧ Ahead more after otherAfter)
    (trans : ∀ less more state other third, Ahead less state other → Ahead more other third →
      Ahead (less + more) state third)
    {first again : State} {gain : Nat} (loop : Reaches machine first again)
    (gained : Ahead gain first again) (rounds : Nat) :
    ∃ last, Reaches machine again last ∧ Ahead (gain * (rounds + 1)) first last := by
  induction rounds with
  | zero => exact ⟨again, Run.start, by rwa [Nat.zero_add, Nat.mul_one]⟩
  | succ rounds ih =>
    obtain ⟨last, before, farther⟩ := ih
    obtain ⟨next, round, alike⟩ := run_matched (Ahead (gain * (rounds + 1))) (each _) loop farther
    refine ⟨next, run_trans before round, ?_⟩
    have both := trans _ _ _ _ _ gained alike
    rwa [Nat.add_comm, ← Nat.mul_succ] at both

theorem run_of_runAll {machine : Machine State Event} {guard : Guard State Event}
    (allowed : ∀ state event, guard state event) (events : List Event) :
    ∀ {first last : State}, runAll machine first events = some last →
      Run machine guard first last := by
  induction events with
  | nil =>
    intro first last same
    cases same
    exact Run.start
  | cons event rest ih =>
    intro first last ran
    unfold runAll at ran
    split at ran
    · rename_i after stepped
      exact run_trans (Run.next Run.start (allowed first event) stepped) (ih ran)
    · cases ran

theorem reaches_of_runAll {machine : Machine State Event} {first last : State}
    (events : List Event) (ran : runAll machine first events = some last) :
    Reaches machine first last :=
  run_of_runAll (fun _ _ => trivial) events ran

/-- Runs the events as long as each passes a check. -/
def runWhere (machine : Machine State Event) (check : State → Event → Bool) (state : State) :
    List Event → Option State
  | [] => some state
  | event :: rest =>
    match check state event, machine state event with
    | true, some after => runWhere machine check after rest
    | _, _ => none

theorem run_of_runWhere {machine : Machine State Event} {guard : Guard State Event}
    {check : State → Event → Bool} (sound : ∀ state event, check state event = true → guard state event)
    (events : List Event) : ∀ {first last : State},
      runWhere machine check first events = some last → Run machine guard first last := by
  induction events with
  | nil =>
    intro first last same
    cases same
    exact Run.start
  | cons event rest ih =>
    intro first last ran
    unfold runWhere at ran
    split at ran
    · rename_i after passed stepped
      exact run_trans (Run.next Run.start (sound first event passed) stepped) (ih ran)
    · cases ran

/-- Every event of a list is allowed where a run of the list comes to it. -/
def Along (machine : Machine State Event) (guard : Guard State Event) (state : State) :
    List Event → Prop
  | [] => True
  | event :: rest =>
    guard state event ∧ ∀ after, machine state event = some after → Along machine guard after rest

theorem runAll_append (machine : Machine State Event) (before after : List Event) :
    ∀ first, runAll machine first (before ++ after) =
      (runAll machine first before).bind fun middle => runAll machine middle after := by
  induction before with
  | nil => exact fun first => rfl
  | cons event rest ih =>
    intro first
    simp only [List.cons_append, runAll]
    cases machine first event with
    | none => rfl
    | some middle => exact ih middle

theorem run_of_along {machine : Machine State Event} {guard : Guard State Event}
    (events : List Event) : ∀ {first last : State}, Along machine guard first events →
      runAll machine first events = some last → Run machine guard first last := by
  induction events with
  | nil =>
    intro first last _ same
    cases same
    exact Run.start
  | cons event rest ih =>
    intro first last allowed ran
    unfold runAll at ran
    split at ran
    · rename_i after stepped
      exact run_trans (Run.next Run.start allowed.1 stepped) (ih (allowed.2 after stepped) ran)
    · cases ran

theorem along_cons_iff {machine : Machine State Event} {guard : Guard State Event}
    {first after : State} {event : Event} (stepped : machine first event = some after)
    (rest : List Event) : Along machine guard first (event :: rest) ↔
      guard first event ∧ Along machine guard after rest := by
  constructor
  · exact fun along => ⟨along.1, along.2 after stepped⟩
  · rintro ⟨allowed, along⟩
    refine ⟨allowed, fun next other => ?_⟩
    have same : after = next := Option.some.inj (stepped.symm.trans other)
    rwa [← same]

/-- The first event of a list that is not allowed. -/
theorem strays_of_not_along {machine : Machine State Event} {guard : Guard State Event}
    (events : List Event) : ∀ {first : State}, ¬ Along machine guard first events →
      ∃ before event after middle, events = before ++ event :: after ∧
        Along machine guard first before ∧ runAll machine first before = some middle ∧
        ¬ guard middle event := by
  induction events with
  | nil => exact fun strays => absurd trivial strays
  | cons event rest ih =>
    intro first strays
    by_cases allowed : guard first event
    · cases stepped : machine first event with
      | none =>
        refine absurd ⟨allowed, fun after other => ?_⟩ strays
        rw [stepped] at other
        cases other
      | some after =>
        have later : ¬ Along machine guard after rest :=
          fun along => strays ((along_cons_iff stepped rest).mpr ⟨allowed, along⟩)
        obtain ⟨before, other, left, middle, same, kept, ran, out⟩ := ih later
        refine ⟨event :: before, other, left, middle, by rw [same, List.cons_append], ?_, ?_, out⟩
        · exact (along_cons_iff stepped before).mpr ⟨allowed, kept⟩
        · unfold runAll
          rw [stepped]
          exact ran
    · exact ⟨[], event, rest, first, rfl, trivial, rfl, allowed⟩

/-- In every state that a run of a list comes through. -/
def Throughout (machine : Machine State Event) (Holds : State → Prop) (first : State)
    (events : List Event) : Prop :=
  ∀ before after middle, events = before ++ after → runAll machine first before = some middle →
    Holds middle

theorem throughout_nil_iff {machine : Machine State Event} {Holds : State → Prop} {first : State} :
    Throughout machine Holds first [] ↔ Holds first := by
  constructor
  · exact fun throughout => throughout [] [] first rfl rfl
  · intro holds before after middle same ran
    obtain ⟨rfl, rfl⟩ := List.append_eq_nil_iff.mp same.symm
    cases ran
    exact holds

theorem throughout_cons_iff {machine : Machine State Event} {Holds : State → Prop}
    {first after : State} {event : Event} (stepped : machine first event = some after)
    (rest : List Event) : Throughout machine Holds first (event :: rest) ↔
      Holds first ∧ Throughout machine Holds after rest := by
  have onward : ∀ before, runAll machine first (event :: before) = runAll machine after before := by
    intro before
    rw [runAll, stepped]
  constructor
  · intro throughout
    refine ⟨throughout [] (event :: rest) first rfl rfl, fun before later middle same ran => ?_⟩
    refine throughout (event :: before) later middle (by rw [same, List.cons_append]) ?_
    rw [onward, ran]
  · rintro ⟨holds, throughout⟩ before later middle same ran
    cases before with
    | nil =>
      cases ran
      exact holds
    | cons head before =>
      rw [List.cons_append] at same
      obtain ⟨rfl, others⟩ := List.cons.inj same
      rw [onward] at ran
      exact throughout before later middle others ran

/-- Where an event keeps what holds exactly if it is guarded, it holds throughout a run exactly
    if all events are. Every event is assumed to be of a kind, and keeps an invariant. -/
theorem throughout_iff_along {machine : Machine State Event} {assumed guard : Guard State Event}
    {Kept Holds : State → Prop}
    (each : ∀ state event after, Kept state → Holds state → assumed state event →
      machine state event = some after → Kept after ∧ (guard state event ↔ Holds after))
    (events : List Event) : ∀ {first last : State}, Kept first → Holds first →
      Along machine assumed first events → runAll machine first events = some last →
        (Throughout machine Holds first events ↔ Along machine guard first events) := by
  induction events with
  | nil => exact fun {first} {_} _ holds _ _ => iff_of_true (throughout_nil_iff.mpr holds) trivial
  | cons event rest ih =>
    intro first last kept holds allowed ran
    unfold runAll at ran
    split at ran
    · rename_i after stepped
      obtain ⟨keptAfter, exactly⟩ := each _ _ _ kept holds allowed.1 stepped
      have later : Holds after → (Throughout machine Holds after rest ↔
          Along machine guard after rest) := fun holdsAfter =>
        ih keptAfter holdsAfter (allowed.2 after stepped) ran
      rw [throughout_cons_iff stepped, along_cons_iff stepped]
      constructor
      · rintro ⟨_, throughout⟩
        have holdsAfter := throughout [] rest after rfl rfl
        exact ⟨exactly.mpr holdsAfter, (later holdsAfter).mp throughout⟩
      · rintro ⟨guarded, along⟩
        exact ⟨holds, (later (exactly.mp guarded)).mpr along⟩
    · cases ran

end Runs
