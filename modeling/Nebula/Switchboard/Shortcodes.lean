import Nebula.Lib.Runs
import Mathlib.Algebra.GroupWithZero.Nat
import Mathlib.Logic.Function.Basic

/- The digits of one channel that may be part of a shortcode: buffered in Redis, taken up by the
   next digit or sent by a timer. The calls that receive digits come one after the other. -/
namespace Shortcodes

abbrev Text := List Char

section Model

structure ShortCode where
  id : Int
  uuid : String
  shortcode : Text
  feature : String
  deriving DecidableEq

def ShortCode.code (shortcode : ShortCode) : Text := '*' :: shortcode.shortcode

inductive Choice where
  | complete (shortcode : ShortCode)
  | longer
  | noMatch
  deriving DecidableEq

/-- The first shortcode that is complete or goes on. -/
def choose (current : Text) : List ShortCode → Choice
  | [] => .noMatch
  | shortcode :: rest =>
    if shortcode.code = current then .complete shortcode
    else if current.isPrefixOf shortcode.code then .longer
    else choose current rest

/-- What a call does at its end. -/
inductive Next where
  | process (shortcode : ShortCode)
  | send (digits : Text)
  deriving DecidableEq

inductive CallStage where
  | idle
  | read (dtmf : Char) (pending : Text)
  | clearing (next : Next)
  | doing (next : Next)
  deriving DecidableEq

def CallStage.sendAll : Text → CallStage
  | [] => .idle
  | digits => .doing (.send digits)

/-- The stages of a timer: off, asleep, after reading the buffer, after finding its version, after
    deleting the buffer, and with digits to send. -/
inductive Timer where
  | off
  | waiting
  | read (pending : Text)
  | current (pending : Text)
  | cleared (pending : Text)
  | sending (digits : Text)
  deriving DecidableEq

def Timer.sendAll : Text → Timer
  | [] => .off
  | digits => .sending digits

/-- Whether a timer has found its version. -/
def Timer.atWork : Timer → Bool
  | .current _ | .cleared _ | .sending _ => true
  | _ => false

inductive Output where
  | sent (digit : Char)
  | processed (shortcode : ShortCode)

def Output.digits : Output → Text
  | .sent digit => [digit]
  | .processed shortcode => shortcode.code

/-- Versions are numbered. What was received is no part of the code. -/
structure State where
  pending : Option Text
  version : Option ℕ
  spawned : ℕ
  timers : ℕ → Timer
  call : CallStage
  log : List Output
  received : Text

def State.start : State := ⟨none, none, 0, fun _ => .off, .idle, [], []⟩

def State.setTimer (state : State) (version : ℕ) (timer : Timer) : State :=
  { state with timers := Function.update state.timers version timer }

def State.setPending (state : State) (pending : Text) : State :=
  { state with
    pending := some pending, version := some state.spawned, spawned := state.spawned + 1
    timers := Function.update state.timers state.spawned .waiting }

def State.output (state : State) (output : Output) : State :=
  { state with log := state.log ++ [output] }

variable (codes : List ShortCode) (state : State)

/-- A call begins and reads the buffer; without shortcodes it does not look at it. -/
def receiveDtmf (dtmf : Char) : Option State :=
  match state.call with
  | .idle => some { state with
      received := state.received ++ [dtmf]
      call := if codes = [] then .doing (.send [dtmf]) else .read dtmf (state.pending.getD []) }
  | _ => none

/-- The next step of the call. One digit that is not taken ends it. -/
def callStep (accepted : Bool) : Option State :=
  match state.call with
  | .idle => none
  | .read dtmf pending =>
    if dtmf = '*' then some { state.setPending ['*'] with call := .sendAll pending }
    else if pending = [] then some { state with call := .doing (.send [dtmf]) }
    else
      match choose (pending ++ [dtmf]) codes with
      | .complete shortcode =>
        some { state with pending := none, call := .clearing (.process shortcode) }
      | .longer => some { state.setPending (pending ++ [dtmf]) with call := .idle }
      | .noMatch =>
        some { state with pending := none, call := .clearing (.send (pending ++ [dtmf])) }
  | .clearing next => some { state with version := none, call := .doing next }
  | .doing (.process shortcode) =>
    some { state.output (.processed shortcode) with call := .idle }
  | .doing (.send []) => some { state with call := .idle }
  | .doing (.send (digit :: rest)) =>
    if accepted then some { state.output (.sent digit) with call := .sendAll rest }
    else some { state with call := .idle }

/-- The next step of a timer. It goes on after a digit that is not taken. -/
def timerStep (version : ℕ) (accepted : Bool) : Option State :=
  match state.timers version with
  | .off => none
  | .waiting => some (state.setTimer version (.read (state.pending.getD [])))
  | .read pending =>
    if state.version = some version then some (state.setTimer version (.current pending))
    else some (state.setTimer version .off)
  | .current pending => some { state.setTimer version (.cleared pending) with pending := none }
  | .cleared pending => some { state.setTimer version (.sendAll pending) with version := none }
  | .sending [] => some (state.setTimer version .off)
  | .sending (digit :: rest) =>
    if accepted then some ((state.setTimer version (.sendAll rest)).output (.sent digit))
    else some (state.setTimer version (.sendAll rest))

inductive Event where
  | digit (dtmf : Char)
  | call (accepted : Bool)
  | timer (version : ℕ) (accepted : Bool)

def machine : Runs.Machine State Event := fun state event =>
  match event with
  | .digit dtmf => receiveDtmf codes state dtmf
  | .call accepted => callStep codes state accepted
  | .timer version accepted => timerStep state version accepted

end Model

section Claimed

def delivered (log : List Output) : Text := log.flatMap Output.digits

def State.quiet (state : State) : Prop := state.call = .idle ∧ ∀ version, state.timers version = .off

/-- What was delivered is what was received, in its order and up to some digit; in the end it is
    all. -/
structure Accounted (state : State) : Prop where
  inOrder : delivered state.log <+: state.received
  complete : state.quiet → delivered state.log = state.received

/-- As the database returns them. -/
def Ascending (codes : List ShortCode) : Prop :=
  codes.Pairwise fun shortcode longer =>
    (shortcode.shortcode.map Char.utf8Size).sum ≤ (longer.shortcode.map Char.utf8Size).sum

/-- All other orders of the shortcodes in which the lengths ascend lead to the same steps. -/
def OrderFree (codes : List ShortCode) : Prop :=
  ∀ other, other.Perm codes → Ascending other → machine other = machine codes

/-- No two shortcodes have one code. -/
def Distinct (codes : List ShortCode) : Prop :=
  ∀ shortcode ∈ codes, ∀ other ∈ codes, shortcode.code = other.code → shortcode = other

def Event.taken : Event → Bool
  | .digit _ => true
  | .call accepted => accepted
  | .timer _ accepted => accepted

/-- Each digit is taken. -/
def Taken : Runs.Guard State Event := fun _ event => event.taken = true

/-- No call begins while a timer that has found its version is at work, no timer finds its version
    while a call is on its way, and each digit is taken. -/
def Apart : Runs.Guard State Event := fun state event =>
  match event with
  | .digit _ => ∀ version, (state.timers version).atWork = false
  | .call accepted => accepted = true
  | .timer version accepted => accepted = true ∧ ∀ pending,
      state.timers version = .read pending → state.version = some version → state.call = .idle

end Claimed

section Timers
variable {state : State} {version other : ℕ} {timer : Timer}

theorem setTimer_same : (state.setTimer version timer).timers version = timer :=
  Function.update_self _ _ _

theorem setTimer_other (apart : other ≠ version) :
    (state.setTimer version timer).timers other = state.timers other :=
  Function.update_of_ne apart _ _

theorem setPending_same {pending : Text} :
    (state.setPending pending).timers state.spawned = .waiting :=
  Function.update_self _ _ _

theorem setPending_other {pending : Text} (apart : other ≠ state.spawned) :
    (state.setPending pending).timers other = state.timers other :=
  Function.update_of_ne apart _ _

end Timers

section Buffer
variable {codes : List ShortCode} {state : State}

/-- What is buffered, with the timer that would send it. -/
def Held (state : State) (buffered : Text) : Prop :=
  if buffered = [] then state.pending = none ∧ state.version = none
  else state.pending = some buffered ∧ ∃ version, state.version = some version ∧
    (state.timers version = .waiting ∨ state.timers version = .read buffered)

theorem held_empty (pending : state.pending = none) (version : state.version = none) :
    Held state [] := by
  rw [Held, if_pos rfl]
  exact ⟨pending, version⟩

theorem held_getD {buffered : Text} (held : Held state buffered) :
    state.pending.getD [] = buffered := by
  unfold Held at held
  split at held
  · rename_i empty
    rw [held.1, empty]
    rfl
  · rw [held.1]
    rfl

def Resting (state : State) : Prop := ∀ version, (state.timers version).atWork = false

/-- Each version is that of a timer, and none is given twice or without shortcodes. -/
structure Numbered (codes : List ShortCode) (state : State) : Prop where
  unused : ∀ version, state.spawned ≤ version → state.timers version = .off
  used : ∀ version, state.version = some version → version < state.spawned
  unset : codes = [] → state.spawned = 0

theorem setPending_numbered (numbered : Numbered codes state) (some_ : codes ≠ [])
    (pending : Text) : Numbered codes (state.setPending pending) := by
  refine ⟨?_, ?_, fun none_ => absurd none_ some_⟩
  · intro version later
    have apart : version ≠ state.spawned := fun same => Nat.not_succ_le_self _ (same ▸ later)
    rw [setPending_other apart]
    exact numbered.unused version (Nat.le_of_succ_le later)
  · rintro version ⟨⟩
    exact Nat.lt_succ_self _

theorem setPending_held {pending : Text} (some_ : pending ≠ []) :
    Held (state.setPending pending) pending := by
  rw [Held, if_neg some_]
  exact ⟨rfl, state.spawned, rfl, Or.inl setPending_same⟩

theorem setPending_resting (resting : Resting state) (pending : Text) :
    Resting (state.setPending pending) := by
  intro version
  by_cases own : version = state.spawned
  · rw [own, setPending_same]
    rfl
  · rw [setPending_other own]
    exact resting version

theorem setTimer_numbered (numbered : Numbered codes state) {version : ℕ}
    (running : state.timers version ≠ .off) (timer : Timer) :
    Numbered codes (state.setTimer version timer) := by
  refine ⟨fun other later => ?_, numbered.used, numbered.unset⟩
  have apart : other ≠ version := fun same => running (numbered.unused version (same ▸ later))
  rw [setTimer_other apart]
  exact numbered.unused other later

theorem setTimer_resting (resting : Resting state) (version : ℕ) {timer : Timer}
    (rests : timer.atWork = false) : Resting (state.setTimer version timer) := by
  intro other
  by_cases own : other = version
  · rw [own, setTimer_same]
    exact rests
  · rw [setTimer_other own]
    exact resting other

/-- A timer that reads the buffer reads what its version stands for. -/
theorem read_held {buffered : Text} (held : Held state buffered) (version : ℕ)
    (waiting : state.timers version = .waiting) :
    Held (state.setTimer version (.read (state.pending.getD []))) buffered := by
  have content := held_getD held
  unfold Held at held ⊢
  split at held
  · rw [if_pos ‹_›]
    exact held
  · rw [if_neg ‹_›]
    obtain ⟨pending, own, current, stage⟩ := held
    refine ⟨pending, own, current, ?_⟩
    by_cases same : own = version
    · subst same
      rw [content, setTimer_same]
      exact Or.inr rfl
    · rw [setTimer_other same]
      exact stage

/-- A timer of another version does not matter. -/
theorem other_held {buffered : Text} (held : Held state buffered) {version : ℕ}
    (other : state.version ≠ some version) (timer : Timer) :
    Held (state.setTimer version timer) buffered := by
  unfold Held at held ⊢
  split at held
  · rw [if_pos ‹_›]
    exact held
  · rw [if_neg ‹_›]
    obtain ⟨pending, own, current, stage⟩ := held
    refine ⟨pending, own, current, ?_⟩
    have apart : own ≠ version := fun same => other (same ▸ current)
    rw [setTimer_other apart]
    exact stage

end Buffer

section Phases

def Next.digits : Next → Text
  | .process shortcode => shortcode.code
  | .send digits => digits

/-- Where the digits are that were received and not delivered: buffered, with the call, or with the
    one timer that has found its version. -/
inductive Phase (codes : List ShortCode) (state : State) : Prop where
  | buffered (digits : Text) (idle : state.call = .idle) (resting : Resting state)
    (held : Held state digits) (rest : state.received = delivered state.log ++ digits)
  | reading (dtmf : Char) (digits : Text) (call : state.call = .read dtmf digits)
    (some_ : codes ≠ [])
    (resting : Resting state) (held : Held state digits)
    (rest : state.received = delivered state.log ++ (digits ++ [dtmf]))
  | clearing (next : Next) (call : state.call = .clearing next) (resting : Resting state)
    (pending : state.pending = none)
    (rest : state.received = delivered state.log ++ next.digits)
  | doing (next : Next) (digits : Text) (call : state.call = .doing next)
    (resting : Resting state) (held : Held state digits)
    (rest : state.received = delivered state.log ++ (next.digits ++ digits))
  | firing (version : ℕ) (digits : Text) (idle : state.call = .idle)
    (alone : ∀ other, other ≠ version → (state.timers other).atWork = false)
    (timer : state.timers version = .current digits ∨
      state.timers version = .cleared digits ∧ state.pending = none ∨
      state.timers version = .sending digits ∧ state.pending = none ∧ state.version = none)
    (current : state.version = some version ∨ state.version = none)
    (rest : state.received = delivered state.log ++ digits)

variable {codes : List ShortCode} {state after : State}

theorem delivered_append (log : List Output) (output : Output) :
    delivered (log ++ [output]) = delivered log ++ output.digits := by
  simp [delivered]

/-- A call that has digits to send, and what is buffered. -/
theorem phase_sendAll {digits buffered : Text} (resting : Resting state)
    (held : Held state buffered)
    (rest : state.received = delivered state.log ++ (digits ++ buffered)) :
    Phase codes { state with call := .sendAll digits } := by
  cases digits with
  | nil => exact .buffered buffered rfl resting held rest
  | cons digit digits => exact .doing (.send (digit :: digits)) buffered rfl resting held rest

theorem choose_complete {current : Text} {shortcode : ShortCode}
    (chosen : choose current codes = .complete shortcode) :
    shortcode ∈ codes ∧ shortcode.code = current := by
  induction codes with
  | nil => cases chosen
  | cons head rest ih =>
    rw [choose] at chosen
    split at chosen
    · rename_i same
      cases chosen
      exact ⟨List.mem_cons_self, same⟩
    · split at chosen
      · cases chosen
      · obtain ⟨member, same⟩ := ih chosen
        exact ⟨List.mem_cons_of_mem _ member, same⟩

theorem Phase.begins (phase : Phase codes state) (numbered : Numbered codes state) {dtmf : Char}
    (resting : Resting state) (begins : receiveDtmf codes state dtmf = some after) :
    Phase codes after := by
  unfold receiveDtmf at begins
  split at begins
  · rename_i idle
    cases begins
    cases phase with
    | buffered digits _ _ held rest =>
      by_cases none_ : codes = []
      · have empty : digits = [] := by
          by_contra some_
          rw [Held, if_neg some_] at held
          obtain ⟨_, version, current, _⟩ := held
          have early := numbered.used version current
          rw [numbered.unset none_] at early
          exact Nat.not_lt_zero _ early
        subst empty
        rw [if_pos none_]
        refine .doing (.send [dtmf]) [] rfl resting held ?_
        simp [Next.digits, rest]
      · rw [if_neg none_, held_getD held]
        refine .reading dtmf digits rfl none_ resting held ?_
        simp [rest]
    | firing version digits _ _ timer =>
      have rests := resting version
      rcases timer with stage | ⟨stage, _⟩ | ⟨stage, _⟩ <;> rw [stage] at rests <;> cases rests
    | reading dtmf digits call => exact absurd (idle.symm.trans call) nofun
    | clearing next call => exact absurd (idle.symm.trans call) nofun
    | doing next digits call => exact absurd (idle.symm.trans call) nofun
  · cases begins

theorem Phase.calls (phase : Phase codes state)
    (stepped : callStep codes state true = some after) : Phase codes after := by
  cases phase with
  | buffered digits idle =>
    rw [callStep, idle] at stepped
    cases stepped
  | firing version digits idle =>
    rw [callStep, idle] at stepped
    cases stepped
  | reading dtmf digits call some_ resting held rest =>
    simp only [callStep, call] at stepped
    split at stepped
    · rename_i star
      cases stepped
      subst star
      exact @phase_sendAll codes (state.setPending ['*']) digits ['*']
        (setPending_resting resting _) (setPending_held (List.cons_ne_nil _ _)) rest
    · split at stepped
      · rename_i empty
        cases stepped
        subst empty
        refine .doing (.send [dtmf]) [] rfl resting held ?_
        rw [rest, List.append_nil]
        rfl
      · split at stepped
        · rename_i shortcode chosen
          cases stepped
          refine .clearing (.process shortcode) rfl resting rfl ?_
          rw [rest, Next.digits, (choose_complete chosen).2]
        · cases stepped
          exact .buffered (digits ++ [dtmf]) rfl (setPending_resting resting (digits ++ [dtmf]))
            (setPending_held (List.append_ne_nil_of_right_ne_nil _ (List.cons_ne_nil _ _))) rest
        · cases stepped
          exact .clearing (.send (digits ++ [dtmf])) rfl resting rfl rest
  | clearing next call resting pending rest =>
    rw [callStep, call] at stepped
    cases stepped
    refine .doing next [] rfl resting (held_empty pending rfl) ?_
    rw [List.append_nil]
    exact rest
  | doing next digits call resting held rest =>
    cases next with
    | process shortcode =>
      simp only [callStep, call] at stepped
      cases stepped
      refine .buffered digits rfl resting held ?_
      rw [State.output, delivered_append, List.append_assoc]
      exact rest
    | send send =>
      cases send with
      | nil =>
        simp only [callStep, call] at stepped
        cases stepped
        exact .buffered digits rfl resting held rest
      | cons digit send =>
        simp only [callStep, call, if_pos] at stepped
        cases stepped
        refine @phase_sendAll codes (state.output (.sent digit)) send digits resting held ?_
        rw [State.output, delivered_append, List.append_assoc]
        exact rest

/-- A timer with digits to send is the one at work, or it is off and none is. -/
theorem phase_fired {version : ℕ} {digits : Text} (idle : state.call = .idle)
    (alone : ∀ other, other ≠ version → (state.timers other).atWork = false)
    (pending : state.pending = none) (unset : state.version = none)
    (rest : state.received = delivered state.log ++ digits) :
    Phase codes (state.setTimer version (.sendAll digits)) := by
  have others (timer : Timer) (other : ℕ) (apart : other ≠ version) :
      ((state.setTimer version timer).timers other).atWork = false := by
    rw [setTimer_other apart]
    exact alone other apart
  cases digits with
  | nil =>
    refine .buffered [] idle (fun other => ?_) (held_empty pending unset) rest
    by_cases own : other = version
    · rw [own, setTimer_same]
      rfl
    · exact others _ other own
  | cons digit digits =>
    exact .firing version (digit :: digits) idle (others _)
      (Or.inr (Or.inr ⟨setTimer_same, pending, unset⟩)) (Or.inr unset) rest

/-- A timer that is not at work goes on without being at work. -/
theorem Phase.aside (phase : Phase codes state) {version : ℕ} {timer : Timer}
    (rested : (state.timers version).atWork = false) (rests : timer.atWork = false)
    (held : ∀ digits, Held state digits → Held (state.setTimer version timer) digits) :
    Phase codes (state.setTimer version timer) := by
  cases phase with
  | buffered digits idle resting before rest =>
    exact .buffered digits idle (setTimer_resting resting version rests) (held digits before) rest
  | reading dtmf digits call some_ resting before rest =>
    exact .reading dtmf digits call some_ (setTimer_resting resting version rests)
      (held digits before) rest
  | clearing next call resting pending rest =>
    exact .clearing next call (setTimer_resting resting version rests) pending rest
  | doing next digits call resting before rest =>
    exact .doing next digits call (setTimer_resting resting version rests) (held digits before)
      rest
  | firing own digits idle alone stage current rest =>
    have apart : own ≠ version := by
      rintro rfl
      rcases stage with stage | ⟨stage, _⟩ | ⟨stage, _⟩ <;> rw [stage] at rested <;> cases rested
    refine .firing own digits idle (fun other different => ?_) ?_ current rest
    · by_cases same : other = version
      · rw [same, setTimer_same]
        exact rests
      · rw [setTimer_other same]
        exact alone other different
    · rw [setTimer_other apart]
      exact stage

/-- A timer finds its version only where it is the timer of the buffer. -/
theorem Phase.found (phase : Phase codes state) {version : ℕ} {pending : Text}
    (stage : state.timers version = .read pending) (own : state.version = some version)
    (idle : state.call = .idle) : Phase codes (state.setTimer version (.current pending)) := by
  cases phase with
  | reading dtmf digits call => exact absurd (idle.symm.trans call) nofun
  | clearing next call => exact absurd (idle.symm.trans call) nofun
  | doing next digits call => exact absurd (idle.symm.trans call) nofun
  | firing other digits _ _ working current =>
    rcases current with found | none_
    · obtain rfl := Option.some.inj (found.symm.trans own)
      rw [stage] at working
      rcases working with working | ⟨working, _⟩ | ⟨working, _⟩ <;> cases working
    · exact absurd (none_.symm.trans own) nofun
  | buffered digits _ resting held rest =>
    unfold Held at held
    split at held
    · exact absurd (held.2.symm.trans own) nofun
    · obtain ⟨content, other, found, asleep | awake⟩ := held
      · obtain rfl := Option.some.inj (found.symm.trans own)
        exact absurd (stage.symm.trans asleep) nofun
      · obtain rfl := Option.some.inj (found.symm.trans own)
        cases stage.symm.trans awake
        refine .firing other _ idle (fun another different => ?_) (Or.inl setTimer_same)
          (Or.inl found) rest
        rw [setTimer_other different]
        exact resting another

/-- The timer at work, and where its digits are. -/
theorem Phase.working (phase : Phase codes state) {version : ℕ}
    (atWork : (state.timers version).atWork = true) :
    state.call = .idle ∧ (∀ other, other ≠ version → (state.timers other).atWork = false) ∧
      ∃ digits, state.received = delivered state.log ++ digits ∧
        (state.timers version = .current digits ∨
          state.timers version = .cleared digits ∧ state.pending = none ∨
          state.timers version = .sending digits ∧ state.pending = none ∧
            state.version = none) ∧
        (state.version = some version ∨ state.version = none) := by
  cases phase with
  | buffered _ _ resting => exact absurd ((resting version).symm.trans atWork) nofun
  | reading _ _ _ _ resting => exact absurd ((resting version).symm.trans atWork) nofun
  | clearing _ _ resting => exact absurd ((resting version).symm.trans atWork) nofun
  | doing _ _ _ resting => exact absurd ((resting version).symm.trans atWork) nofun
  | firing own digits idle alone stage current rest =>
    by_cases same : version = own
    · subst same
      exact ⟨idle, alone, _, rest, stage, current⟩
    · exact absurd ((alone version same).symm.trans atWork) nofun

theorem Phase.fires (phase : Phase codes state) {version : ℕ}
    (apart : ∀ pending, state.timers version = .read pending → state.version = some version →
      state.call = .idle)
    (stepped : timerStep state version true = some after) : Phase codes after := by
  unfold timerStep at stepped
  cases timer : state.timers version with
  | off =>
    rw [timer] at stepped
    cases stepped
  | waiting =>
    rw [timer] at stepped
    cases stepped
    exact phase.aside (by rw [timer]; rfl) rfl fun digits held => read_held held version timer
  | read pending =>
    simp only [timer] at stepped
    split at stepped
    · rename_i own
      cases stepped
      exact phase.found timer own (apart pending timer own)
    · rename_i other
      cases stepped
      exact phase.aside (by rw [timer]; rfl) rfl fun _ held => other_held held other _
  | current pending =>
    obtain ⟨idle, alone, digits, rest, stage, current⟩ :=
      phase.working (congrArg Timer.atWork timer)
    rw [timer] at stepped stage
    cases stepped
    obtain same | ⟨same, _⟩ | ⟨same, _⟩ := stage <;> cases same
    refine .firing version pending idle (fun other different => ?_)
      (Or.inr (Or.inl ⟨setTimer_same, rfl⟩)) current rest
    exact (congrArg Timer.atWork (setTimer_other different)).trans (alone other different)
  | cleared pending =>
    obtain ⟨idle, alone, digits, rest, stage, _⟩ :=
      phase.working (congrArg Timer.atWork timer)
    rw [timer] at stepped stage
    cases stepped
    obtain same | ⟨same, gone⟩ | ⟨same, _⟩ := stage <;> cases same
    exact @phase_fired codes { state with version := none } version pending idle alone gone rfl rest
  | sending digits =>
    obtain ⟨idle, alone, left, rest, stage, _⟩ :=
      phase.working (congrArg Timer.atWork timer)
    rw [timer] at stage
    obtain same | ⟨same, _⟩ | ⟨same, gone, unset⟩ := stage <;> cases same
    cases digits with
    | nil =>
      simp only [timer] at stepped
      cases stepped
      exact @phase_fired codes state version [] idle alone gone unset rest
    | cons digit digits =>
      simp only [timer, if_pos] at stepped
      cases stepped
      refine @phase_fired codes (state.output (.sent digit)) version digits idle alone gone unset ?_
      rw [State.output, delivered_append, List.append_assoc]
      exact rest

end Phases

section Runs
variable {codes : List ShortCode} {state after : State}

theorem receiveDtmf_numbered (numbered : Numbered codes state) {dtmf : Char}
    (begins : receiveDtmf codes state dtmf = some after) : Numbered codes after := by
  unfold receiveDtmf at begins
  split at begins
  · cases begins
    exact ⟨numbered.unused, numbered.used, numbered.unset⟩
  · cases begins

theorem unset_numbered (numbered : Numbered codes state) (call : CallStage) :
    Numbered codes { state with version := none, call } :=
  ⟨numbered.unused, nofun, numbered.unset⟩

theorem callStep_numbered (phase : Phase codes state) (numbered : Numbered codes state)
    {accepted : Bool} (stepped : callStep codes state accepted = some after) :
    Numbered codes after := by
  have kept : ∀ (pending : Option Text) (call : CallStage) (log : List Output),
      Numbered codes { state with pending, call, log } := fun _ _ _ =>
    ⟨numbered.unused, numbered.used, numbered.unset⟩
  unfold callStep at stepped
  split at stepped
  · cases stepped
  · rename_i dtmf pending call
    have some_ : codes ≠ [] := by
      cases phase with
      | reading _ _ _ some_ => exact some_
      | buffered _ idle => exact absurd (idle.symm.trans call) nofun
      | firing _ _ idle => exact absurd (idle.symm.trans call) nofun
      | clearing _ other => exact absurd (other.symm.trans call) nofun
      | doing _ _ other => exact absurd (other.symm.trans call) nofun
    have renewed (content : Text) (call : CallStage) :
        Numbered codes { state.setPending content with call } := by
      have next := setPending_numbered numbered some_ content
      exact ⟨next.unused, next.used, next.unset⟩
    split at stepped
    · cases stepped
      exact renewed _ _
    · split at stepped
      · cases stepped
        exact kept _ _ _
      · split at stepped <;> cases stepped
        · exact kept _ _ _
        · exact renewed _ _
        · exact kept _ _ _
  · cases stepped
    exact unset_numbered numbered _
  · cases stepped
    exact kept _ _ _
  · cases stepped
    exact kept _ _ _
  · split at stepped <;> cases stepped <;> exact kept _ _ _

theorem timerStep_numbered (numbered : Numbered codes state) {version : ℕ} {accepted : Bool}
    (stepped : timerStep state version accepted = some after) : Numbered codes after := by
  have moved (running : state.timers version ≠ .off) (timer : Timer) :
      Numbered codes (state.setTimer version timer) := setTimer_numbered numbered running timer
  have kept (running : state.timers version ≠ .off) (timer : Timer) (pending : Option Text)
      (log : List Output) : Numbered codes { state.setTimer version timer with pending, log } := by
    have next := moved running timer
    exact ⟨next.unused, next.used, next.unset⟩
  unfold timerStep at stepped
  cases timer : state.timers version with
  | off =>
    rw [timer] at stepped
    cases stepped
  | waiting =>
    rw [timer] at stepped
    cases stepped
    exact moved (by rw [timer]; nofun) _
  | read pending =>
    simp only [timer] at stepped
    split at stepped <;> cases stepped <;> exact moved (by rw [timer]; nofun) _
  | current pending =>
    rw [timer] at stepped
    cases stepped
    exact kept (by rw [timer]; nofun) _ _ _
  | cleared pending =>
    rw [timer] at stepped
    cases stepped
    have next := moved (by rw [timer]; nofun) (.sendAll pending)
    exact ⟨next.unused, nofun, next.unset⟩
  | sending digits =>
    cases digits with
    | nil =>
      simp only [timer] at stepped
      cases stepped
      exact moved (by rw [timer]; nofun) _
    | cons digit digits =>
      simp only [timer] at stepped
      split at stepped <;> cases stepped
      · exact kept (by rw [timer]; nofun) _ _ _
      · exact moved (by rw [timer]; nofun) _

theorem step_phase {event : Event} (before : Phase codes state ∧ Numbered codes state)
    (apart : Apart state event) (stepped : machine codes state event = some after) :
    Phase codes after ∧ Numbered codes after := by
  obtain ⟨phase, numbered⟩ := before
  cases event with
  | digit dtmf => exact ⟨phase.begins numbered apart stepped, receiveDtmf_numbered numbered stepped⟩
  | call accepted =>
    obtain rfl : accepted = true := apart
    exact ⟨phase.calls stepped, callStep_numbered phase numbered stepped⟩
  | timer version accepted =>
    obtain ⟨rfl, idle⟩ := apart
    exact ⟨phase.fires idle stepped, timerStep_numbered numbered stepped⟩

theorem Phase.accounted (phase : Phase codes state) : Accounted state := by
  have rests (digits : Text) (idle : state.call = .idle) (held : Held state digits)
      (quiet : state.quiet) : digits = [] := by
    by_contra some_
    rw [Held, if_neg some_] at held
    obtain ⟨_, version, _, stage | stage⟩ := held <;>
      exact absurd ((quiet.2 version).symm.trans stage) nofun
  cases phase with
  | buffered digits idle resting held rest =>
    refine ⟨⟨digits, rest.symm⟩, fun quiet => ?_⟩
    rw [rest, rests digits idle held quiet, List.append_nil]
  | reading dtmf digits call some_ resting held rest =>
    exact ⟨⟨_, rest.symm⟩, fun quiet => absurd (quiet.1.symm.trans call) nofun⟩
  | clearing next call resting pending rest =>
    exact ⟨⟨_, rest.symm⟩, fun quiet => absurd (quiet.1.symm.trans call) nofun⟩
  | doing next digits call resting held rest =>
    exact ⟨⟨_, rest.symm⟩, fun quiet => absurd (quiet.1.symm.trans call) nofun⟩
  | firing version digits idle alone stage current rest =>
    refine ⟨⟨_, rest.symm⟩, fun quiet => ?_⟩
    have off := quiet.2 version
    rw [off] at stage
    rcases stage with stage | ⟨stage, _⟩ | ⟨stage, _⟩ <;> cases stage

theorem run_accounted (run : Runs.Run (machine codes) Apart State.start state) :
    Accounted state := by
  have started : Phase codes State.start ∧ Numbered codes State.start := by
    refine ⟨.buffered [] rfl (fun _ => rfl) (held_empty rfl rfl) rfl, fun _ _ => rfl, nofun, ?_⟩
    exact fun _ => rfl
  have kept := Runs.run_keeps (fun state => Phase codes state ∧ Numbered codes state) started
    (fun _ _ _ before apart stepped => step_phase before apart stepped) run
  exact kept.1.accounted

end Runs

section Order
variable {codes other : List ShortCode} {current : Text}

def byteLength (text : Text) : ℕ := (text.map Char.utf8Size).sum

theorem code_shorter {shortcode longer : ShortCode} (front : shortcode.code <+: longer.code)
    (apart : longer.code ≠ shortcode.code) :
    byteLength shortcode.shortcode < byteLength longer.shortcode := by
  obtain ⟨rest, whole⟩ := front
  cases rest with
  | nil => exact absurd (whole.symm.trans (List.append_nil _)) apart
  | cons digit rest =>
    have same : shortcode.shortcode ++ digit :: rest = longer.shortcode := (List.cons.inj whole).2
    have positive := Char.utf8Size_pos digit
    simp only [byteLength, ← same, List.map_append, List.map_cons, List.sum_append, List.sum_cons]
    omega

/-- A shortcode that is complete comes before those that go on. -/
theorem choose_ascending (ascending : Ascending codes) : choose current codes =
    match codes.find? fun shortcode => shortcode.code = current with
    | some shortcode => .complete shortcode
    | none =>
      if codes.any fun shortcode => current.isPrefixOf shortcode.code then .longer else .noMatch := by
  induction codes with
  | nil => rfl
  | cons head rest ih =>
    obtain ⟨first, later⟩ := List.pairwise_cons.mp ascending
    rw [choose]
    by_cases same : head.code = current
    · simp [same]
    · by_cases front : current.isPrefixOf head.code
      · have none_ : (head :: rest).find? (fun shortcode => shortcode.code = current) = none := by
          refine List.find?_eq_none.mpr fun shortcode member => ?_
          simp only [decide_eq_true_eq]
          rintro rfl
          rcases List.mem_cons.mp member with rfl | inRest
          · exact same rfl
          · have shorter := code_shorter (List.isPrefixOf_iff_prefix.mp front) same
            exact absurd (first shortcode inRest) (Nat.not_le_of_lt shorter)
        simp [same, front, none_]
      · rw [if_neg same, if_neg front, ih later, List.find?_cons_of_neg (by simpa using same),
          List.any_cons, Bool.not_eq_true _ |>.mp front, Bool.false_or]

theorem choose_perm (perm : other.Perm codes) (ascending : Ascending codes)
    (otherAscending : Ascending other) (distinct : Distinct codes) :
    choose current other = choose current codes := by
  have same : other.find? (fun shortcode => shortcode.code = current) =
      codes.find? fun shortcode => shortcode.code = current := by
    cases found : codes.find? fun shortcode => shortcode.code = current with
    | none =>
      rw [List.find?_eq_none] at found ⊢
      exact fun shortcode member => found shortcode (perm.mem_iff.mp member)
    | some shortcode =>
      have member := List.mem_of_find?_eq_some found
      have complete : shortcode.code = current := by simpa using List.find?_some found
      cases otherFound : other.find? fun shortcode => shortcode.code = current with
      | none =>
        have absent := List.find?_eq_none.mp otherFound shortcode (perm.mem_iff.mpr member)
        exact absurd (decide_eq_true complete) absent
      | some second =>
        have secondMember := perm.mem_iff.mp (List.mem_of_find?_eq_some otherFound)
        have secondComplete : second.code = current := by simpa using List.find?_some otherFound
        rw [distinct second secondMember shortcode member (secondComplete.trans complete.symm)]
  rw [choose_ascending ascending, choose_ascending otherAscending, same, perm.any_eq]

theorem orderFree_of_distinct (ascending : Ascending codes) (distinct : Distinct codes) :
    OrderFree codes := by
  intro other perm otherAscending
  have chosen (current : Text) : choose current other = choose current codes :=
    choose_perm perm ascending otherAscending distinct
  have empty : other = [] ↔ codes = [] := by
    rw [← List.length_eq_zero_iff, ← List.length_eq_zero_iff, perm.length_eq]
  funext state event
  cases event with
  | digit dtmf => simp only [machine, receiveDtmf, empty]
  | call accepted => simp only [machine, callStep, chosen]
  | timer version accepted => rfl

/-- No digit is lost or sent twice where timers and calls keep apart, and the order of the
    shortcodes does not matter where their codes differ. -/
theorem digits_accounted (codes : List ShortCode) (ascending : Ascending codes) :
    (∀ state, Runs.Run (machine codes) Apart State.start state → Accounted state) ∧
      (Distinct codes → OrderFree codes) :=
  ⟨fun _ run => run_accounted run, orderFree_of_distinct ascending⟩

def park : ShortCode := ⟨1, "park", ['1', '2'], "park"⟩

/-- A digit and the step of its call. -/
theorem digit_run {codes : List ShortCode} {state after : State} (dtmf : Char)
    (run : Runs.Run (machine codes) Apart State.start state)
    (resting : ∀ version, (state.timers version).atWork = false)
    (ran : (receiveDtmf codes state dtmf).bind (callStep codes · true) = some after) :
    Runs.Run (machine codes) Apart State.start after := by
  obtain ⟨middle, begins, stepped⟩ := Option.bind_eq_some_iff.mp ran
  have begun : Runs.Run (machine codes) Apart State.start middle :=
    Runs.Run.next run (show Apart state (.digit dtmf) from resting) begins
  exact Runs.Run.next begun (show Apart middle (.call true) from rfl) stepped

theorem digits_accounted_park : OrderFree [park] ∧
    ∃ state, Accounted state ∧ state.received = ['*', '1'] := by
  have ascending : Ascending [park] := List.pairwise_singleton _ _
  have star := digit_run '*' (@Runs.Run.start _ _ (machine [park]) Apart State.start)
    (fun _ => rfl) rfl
  have one := digit_run '1' star (fun version => by cases version <;> rfl) rfl
  refine ⟨(digits_accounted [park] ascending).2 ?_, _,
    (digits_accounted [park] ascending).1 _ one, rfl⟩
  rintro shortcode first other second _
  rw [List.mem_singleton.mp first, List.mem_singleton.mp second]

/-- The timer finds its version, the call adds a digit, and the timer deletes both. -/
def raced : List Event :=
  [.digit '*', .call true, .timer 0 true, .timer 0 true, .digit '1', .call true, .timer 0 true,
    .timer 0 true, .timer 0 true, .timer 1 true, .timer 1 true]

theorem digit_lost : ¬∀ codes : List ShortCode, Ascending codes →
    (∀ state, Runs.Run (machine codes) Taken State.start state → Accounted state) ∧
      OrderFree codes := by
  intro always
  obtain ⟨last, ran, idle, off⟩ : ∃ last,
      Runs.runWhere (machine [park]) (fun _ => Event.taken) State.start raced = some last ∧
        last.call = .idle ∧ ∀ version, last.timers version = .off := by
    refine ⟨_, rfl, rfl, fun version => ?_⟩
    rcases version with _ | _ | version <;> rfl
  have run : Runs.Run (machine [park]) Taken State.start last :=
    Runs.run_of_runWhere (fun _ _ taken => taken) raced ran
  have whole := ((always [park] (List.pairwise_singleton _ _)).1 last run).complete ⟨idle, off⟩
  have outcome : (Runs.runWhere (machine [park]) (fun _ => Event.taken) State.start raced).any
      fun last => delivered last.log ≠ last.received := by decide
  rw [ran] at outcome
  exact of_decide_eq_true outcome whole

end Order

end Shortcodes
