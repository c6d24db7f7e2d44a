import Nebula.Lib.Interleaving

/- Programs that read and write whole records of a keyed store and wait for other
   answers in between. A write puts back a whole record, made from one that was read
   before: also the fields it does not change come from that earlier reading. -/
namespace StoredRecords
open Interleaving

/-- A `set` names the record it starts from and what it changes of it. -/
inductive Program (Key Record Question : Type) (Answer : Question → Type) where
  | done
  | get (key : Key) (next : Option Record → Program Key Record Question Answer)
  | set (key : Key) (read : Record) (change : Record → Record)
    (next : Program Key Record Question Answer)
  | ask (question : Question) (next : Answer question → Program Key Record Question Answer)

abbrev Store (Key Record : Type) := Key → Option Record

/-- `changed` is no part of a program: for each field, the record with which the
    program last changed it. -/
structure Proc (Key Record Field Question : Type) (Answer : Question → Type) where
  program : Program Key Record Question Answer
  changed : Key → Field → Option Record

variable {Key Record Field Question : Type} {Value : Field → Type} {Answer : Question → Type}

def Proc.begin (program : Program Key Record Question Answer) :
    Proc Key Record Field Question Answer :=
  ⟨program, fun _ _ => none⟩

section
variable [DecidableEq Key] [∀ field, DecidableEq (Value field)]

def noted (view : (field : Field) → Record → Value field) (changed : Key → Field → Option Record)
    (key : Key) (read record : Record) : Key → Field → Option Record :=
  Function.update changed key (fun field =>
    if view field record = view field read then changed key field else some record)

def programStep (view : (field : Field) → Record → Value field)
    (answer : (question : Question) → Answer question) (store : Store Key Record)
    (proc : Proc Key Record Field Question Answer) :
    Option (Store Key Record × Proc Key Record Field Question Answer) :=
  match proc.program with
  | .done => none
  | .get key next => some (store, { proc with program := next (store key) })
  | .set key read change next =>
    some (Function.update store key (some (change read)),
      ⟨next, noted view proc.changed key read (change read)⟩)
  | .ask question next => some (store, { proc with program := next (answer question) })

def programs (view : (field : Field) → Record → Value field) :
    System (Store Key Record) (Proc Key Record Field Question Answer)
      ((question : Question) → Answer question) Empty where
  step := fun _ => programStep view
  outside := fun event _ => nomatch event

/-- The next step of the process does not set a field back: what it leaves as it
    read it is still stored so. -/
def SetsNothingBack (view : (field : Field) → Record → Value field) :
    Guard (Store Key Record) (Proc Key Record Field Question Answer)
      ((question : Question) → Answer question) Empty :=
  fun world action => ∀ pid answer, action = .proc pid answer → ∀ key read change next,
    (world.procs pid).program = .set key read change next → ∀ field,
      view field (change read) = view field read →
        ∃ stored, world.shared key = some stored ∧ view field stored = view field read

/-- The next step of the process writes, if at all, over the very record it starts from. -/
def writesOverRead [DecidableEq Record]
    (world : World (Store Key Record) (Proc Key Record Field Question Answer)) :
    Action ((question : Question) → Answer question) Empty → Bool
  | .proc pid _ =>
    match (world.procs pid).program with
    | .set key read _ _ => decide (world.shared key = some read)
    | _ => true
  | .outside event => nomatch event

/-- A change that no other process has made as well is in the store. -/
def ChangesStored (view : (field : Field) → Record → Value field)
    (world : World (Store Key Record) (Proc Key Record Field Question Answer)) : Prop :=
  ∀ pid key field record, (world.procs pid).changed key field = some record →
    (∀ other, other ≠ pid → (world.procs other).changed key field = none) →
      ∃ stored, world.shared key = some stored ∧ view field stored = view field record

variable {view : (field : Field) → Record → Value field}

theorem noted_kept {changed : Key → Field → Option Record} {key : Key} {read record : Record}
    {field : Field} (kept : view field record = view field read) :
    noted view changed key read record key field = changed key field := by
  simp [noted, kept]

theorem noted_changed {changed : Key → Field → Option Record} {key : Key} {read record : Record}
    {field : Field} (differs : view field record ≠ view field read) :
    noted view changed key read record key field = some record := by
  simp [noted, differs]

theorem noted_other {changed : Key → Field → Option Record} {key other : Key}
    {read record : Record} (different : other ≠ key) :
    noted view changed key read record other = changed other := by
  simp [noted, Function.update_of_ne different]

omit [DecidableEq Key] [∀ field, DecidableEq (Value field)] in
theorem over_read_sets_nothing_back [DecidableEq Record]
    (world : World (Store Key Record) (Proc Key Record Field Question Answer))
    (action : Action ((question : Question) → Answer question) Empty)
    (passed : writesOverRead world action = true) : SetsNothingBack view world action := by
  intro pid answer isProc key read change next isSet field _
  subst isProc
  simp only [writesOverRead, isSet, decide_eq_true_eq] at passed
  exact ⟨read, passed, rfl⟩

/-- A step writes one record and notes its changes, or changes neither. -/
theorem step_cases {answer : (question : Question) → Answer question} {store after : Store Key Record}
    {proc moved : Proc Key Record Field Question Answer}
    (stepped : programStep view answer store proc = some (after, moved)) :
    (∃ key read change next, proc.program = .set key read change next ∧
        after = Function.update store key (some (change read)) ∧
        moved = ⟨next, noted view proc.changed key read (change read)⟩) ∨
      after = store ∧ moved.changed = proc.changed := by
  unfold programStep at stepped
  split at stepped
  · cases stepped
  · cases stepped
    exact Or.inr ⟨rfl, rfl⟩
  · rename_i key read change next isSet
    cases stepped
    exact Or.inl ⟨key, read, change, next, isSet, rfl, rfl⟩
  · cases stepped
    exact Or.inr ⟨rfl, rfl⟩

omit [DecidableEq Key] in
theorem moved_changed
    {world : World (Store Key Record) (Proc Key Record Field Question Answer)} {pid : Nat}
    {store : Store Key Record} {proc : Proc Key Record Field Question Answer}
    (same : proc.changed = (world.procs pid).changed) (other : Nat) :
    ((world.moved pid store proc).procs other).changed = (world.procs other).changed := by
  by_cases isPid : other = pid
  · subst isPid
    rw [moved_same]
    exact same
  · rw [moved_other _ _ _ isPid]

/-- A write that sets nothing back keeps the changes of all. -/
theorem set_keeps
    {world : World (Store Key Record) (Proc Key Record Field Question Answer)} {pid : Nat}
    {key : Key} {read record : Record} {next : Program Key Record Question Answer}
    (held : ChangesStored view world)
    (fresh : ∀ field, view field record = view field read →
      ∃ stored, world.shared key = some stored ∧ view field stored = view field read) :
    ChangesStored view (world.moved pid (Function.update world.shared key (some record))
      ⟨next, noted view (world.procs pid).changed key read record⟩) := by
  intro owner place field written change alone
  by_cases here : place = key
  · subst here
    refine ⟨record, by simp, ?_⟩
    -- The field is one this write changes, or one it leaves as it is stored.
    by_cases kept : view field record = view field read
    · have same : ∀ other, ((world.moved pid (Function.update world.shared place (some record))
          ⟨next, noted view (world.procs pid).changed place read record⟩).procs other).changed
            place field = (world.procs other).changed place field := by
        intro other
        by_cases isPid : other = pid
        · subst isPid
          rw [moved_same]
          exact noted_kept kept
        · rw [moved_other _ _ _ isPid]
      rw [same] at change
      obtain ⟨stored, found, agrees⟩ := held owner place field written change (by
        intro other different
        rw [← same]
        exact alone other different)
      obtain ⟨current, foundHere, asRead⟩ := fresh field kept
      rw [found] at foundHere
      cases foundHere
      rw [kept, ← asRead, agrees]
    · have noticed : ((world.moved pid (Function.update world.shared place (some record))
          ⟨next, noted view (world.procs pid).changed place read record⟩).procs pid).changed
            place field = some record := by
        rw [moved_same]
        exact noted_changed kept
      by_cases isOwner : owner = pid
      · subst isOwner
        rw [noticed] at change
        cases change
        rfl
      · have none := alone pid (Ne.symm isOwner)
        rw [noticed] at none
        cases none
  · have same : ∀ other, ((world.moved pid (Function.update world.shared key (some record))
        ⟨next, noted view (world.procs pid).changed key read record⟩).procs other).changed
          place = (world.procs other).changed place := by
      intro other
      by_cases isPid : other = pid
      · subst isPid
        rw [moved_same]
        exact noted_other here
      · rw [moved_other _ _ _ isPid]
    rw [same] at change
    obtain ⟨stored, found, agrees⟩ := held owner place field written change (by
      intro other different
      rw [← same]
      exact alone other different)
    refine ⟨stored, ?_, agrees⟩
    rw [moved_shared, Function.update_of_ne here]
    exact found

/-- No lost update: in every run in which no write sets a field back. -/
theorem run_changes_stored
    {first last : World (Store Key Record) (Proc Key Record Field Question Answer)}
    (atFirst : ChangesStored view first)
    (run : Run (programs view) (SetsNothingBack view) first last) : ChangesStored view last := by
  apply run_keeps (ChangesStored view) atFirst _ run
  intro world action after held allowed acted
  rcases act_cases acted with ⟨pid, answer, store, proc, isProc, stepped, rfl⟩ | ⟨event, _⟩
  · rcases step_cases stepped with ⟨key, read, change, next, isSet, rfl, rfl⟩ | ⟨rfl, same⟩
    · exact set_keeps held (allowed pid answer isProc key read change next isSet)
    · intro owner place field written change alone
      rw [moved_changed same] at change
      apply held owner place field written change
      intro other different
      have none := alone other different
      rw [moved_changed same] at none
      exact none
  · exact nomatch event

end
end StoredRecords
