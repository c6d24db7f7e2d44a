import Nebula.Lib.Expiring
import Mathlib.Algebra.GroupWithZero.Nat
import Mathlib.Logic.Function.Basic

/- The waiting times of a call queue: a list of the calls that were answered, and a record of each
   that is gone after a while. Times are in milliseconds, waiting times in seconds. -/
namespace WaitingTimes
open Expiring

section Model

inductive Value where
  | string (n : ℕ)
  | list (elements : List String)
  deriving DecidableEq

abbrev Store := String → Cell Value

def waitingTimesKey (queue : String) : String := "nebula:callqueue:" ++ queue ++ ":waiting_times"

def waitingTimeKey (queue call : String) : String :=
  "nebula:callqueue:" ++ queue ++ ":" ++ call ++ ":waiting_time"

variable (now : ℕ) (store : Store)

/-- An expiry of no seconds is an error. -/
def setex (key : String) (expire value : ℕ) : Option Store :=
  if expire = 0 then none
  else some (Function.update store key (writeUntil (now + 1000 * expire) (.string value)))

def pushed (element : String) : Option Value → Value
  | some (.list elements) => .list (elements ++ [element])
  | _ => .list [element]

/-- A string is no list to push to. -/
def rpush (key element : String) : Option Store :=
  match read now (store key) with
  | some (.string _) => none
  | _ => some (Function.update store key (edit now (pushed element) (store key)))

def expire (key : String) (seconds : ℕ) : Store :=
  Function.update store key (expireAt now (now + 1000 * seconds) (store key))

/-- Nothing is removed from a key that does not exist or that is no list. -/
def lrem (key element : String) : Store :=
  match read now (store key) with
  | some (.list elements) =>
    if elements.filter (· ≠ element) = [] then Function.update store key none
    else Function.update store key
      (edit now (fun _ => .list (elements.filter (· ≠ element))) (store key))
  | _ => store

def lrange (key : String) : List String :=
  match read now (store key) with
  | some (.list elements) => elements
  | _ => []

def get (key : String) : Option ℕ :=
  match read now (store key) with
  | some (.string n) => some n
  | _ => none

structure CallQueue where
  id : String
  waitingTime : ℕ

/-- What was written before an error stays. -/
def addWaitingTime (queue : CallQueue) (call : String) (elapsed : ℕ) : Store :=
  match setex now store (waitingTimeKey queue.id call) elapsed elapsed with
  | none => store
  | some store =>
    let key := waitingTimesKey queue.id
    match rpush now store key call with
    | none => store
    | some store => expire now store key queue.waitingTime

/-- The waiting times that are found, and what the clean-up leaves. -/
def waitingTimes (queue : CallQueue) : List String → Store → List ℕ × Store
  | [], store => ([], store)
  | call :: calls, store =>
    let key := waitingTimeKey queue.id call
    match get now store key with
    | some waitingTime =>
      let rest := waitingTimes queue calls store
      (waitingTime :: rest.1, rest.2)
    | none => waitingTimes queue calls (lrem now store key call)

def mean (waitingTimes : List ℕ) : ℕ :=
  if waitingTimes = [] then 0 else waitingTimes.sum / waitingTimes.length

def averageWaitingTime (queue : CallQueue) : ℕ × Store :=
  let found := waitingTimes now queue (lrange now store (waitingTimesKey queue.id)) store
  (mean found.1, found.2)

end Model

section Runs

/-- A call that was answered, when, and what it had waited. -/
structure Answer where
  call : String
  time : ℕ
  elapsed : ℕ
  deriving DecidableEq

/-- The answers, the newest first, are no part of the code. -/
structure State where
  now : ℕ
  store : Store
  answers : List Answer

def State.start (now : ℕ) : State := ⟨now, fun _ => none, []⟩

inductive Event where
  | answered (call : String) (elapsed : ℕ)
  | asked
  | passed (millis : ℕ)

def step (queue : CallQueue) (state : State) : Event → State
  | .answered call elapsed =>
    { state with
      store := addWaitingTime state.now state.store queue call elapsed
      answers := ⟨call, state.now, elapsed⟩ :: state.answers }
  | .asked => { state with store := (averageWaitingTime state.now state.store queue).2 }
  | .passed millis => { state with now := state.now + millis }

def run (queue : CallQueue) (state : State) (events : List Event) : State :=
  events.foldl (step queue) state

end Runs

section Claimed
variable (queue : CallQueue)

/-- The calls that were answered within the last `waiting_time` seconds. -/
def recent (state : State) : List Answer :=
  state.answers.filter fun answer => state.now < answer.time + 1000 * queue.waitingTime

/-- The waiting times that are asked for are those of the recent calls, in their order, and no
    call is left in the list without its record. -/
structure Right (state : State) : Prop where
  samples : (waitingTimes state.now queue
    (lrange state.now state.store (waitingTimesKey queue.id)) state.store).1 =
      ((recent queue state).map Answer.elapsed).reverse
  cleaned : ∀ call ∈ lrange state.now (averageWaitingTime state.now state.store queue).2
      (waitingTimesKey queue.id),
    (get state.now state.store (waitingTimeKey queue.id call)).isSome

/-- What the last answer of a call says of its waiting time, until as much time has passed again;
    a call that did not wait is passed over. -/
def lasting (now : ℕ) (call : String) (answers : List Answer) : Option ℕ :=
  (answers.find? fun answer => answer.call = call ∧ answer.elapsed ≠ 0).bind fun answer =>
    if now < answer.time + 1000 * answer.elapsed then some answer.elapsed else none

/-- The calls that waited, back from a time as long as no pause was too long. -/
def unbroken (time : ℕ) : List Answer → List Answer
  | [] => []
  | answer :: older =>
    if answer.elapsed = 0 then unbroken time older
    else if time < answer.time + 1000 * queue.waitingTime then
      answer :: unbroken answer.time older
    else []

/-- Each recent call waited for longer than the time since, and no call before is joined to them
    by calls without a pause. -/
def InStep (state : State) : Prop :=
  (∀ answer ∈ recent queue state,
    lasting state.now answer.call state.answers = some answer.elapsed) ∧
    ∀ answer ∈ unbroken queue state.now state.answers,
      state.now < answer.time + 1000 * queue.waitingTime

instance decidableInStep (state : State) : Decidable (InStep queue state) :=
  inferInstanceAs (Decidable (_ ∧ _))

end Claimed

section Keys

theorem waitingTimeKey_inj {queue first second : String}
    (same : waitingTimeKey queue first = waitingTimeKey queue second) : first = second := by
  unfold waitingTimeKey at same
  have fronts := (String.append_left_inj _).mp same
  exact (String.append_right_inj _).mp fronts

theorem waitingTimeKey_ne (queue other call : String) :
    waitingTimeKey queue call ≠ waitingTimesKey other := by
  intro same
  unfold waitingTimeKey waitingTimesKey at same
  have ends := congrArg (fun text => text.toList.getLast?) same
  have record : (":waiting_time").toList.getLast? = some 'e' := rfl
  have list : (":waiting_times").toList.getLast? = some 's' := rfl
  simp only [String.toList_append, List.getLast?_append, record, list, Option.some_or] at ends
  exact absurd (Option.some.inj ends) (by decide)

end Keys

section Invariant
variable {queue : CallQueue}

/-- The store says at all later times what the answers say. -/
structure Kept (queue : CallQueue) (state : State) : Prop where
  records : ∀ call time, state.now ≤ time →
    read time (state.store (waitingTimeKey queue.id call)) =
      (lasting time call state.answers).map Value.string
  list : ∀ time, state.now ≤ time → read time (state.store (waitingTimesKey queue.id)) =
    if unbroken queue time state.answers = [] then none
    else some (.list ((unbroken queue time state.answers).map Answer.call).reverse)

theorem Kept.get {state : State} (kept : Kept queue state) (call : String) :
    get state.now state.store (waitingTimeKey queue.id call) =
      lasting state.now call state.answers := by
  unfold WaitingTimes.get
  rw [kept.records call state.now (Nat.le_refl _)]
  cases lasting state.now call state.answers <;> rfl

theorem Kept.lrange {state : State} (kept : Kept queue state) :
    lrange state.now state.store (waitingTimesKey queue.id) =
      ((unbroken queue state.now state.answers).map Answer.call).reverse := by
  unfold WaitingTimes.lrange
  rw [kept.list state.now (Nat.le_refl _)]
  by_cases none_ : unbroken queue state.now state.answers = []
  · rw [if_pos none_, none_]
    rfl
  · rw [if_neg none_]

/-- The clean-up is asked of the record, which is no list. -/
theorem waitingTimes_eq {now : ℕ} {store : Store}
    (strings : ∀ call elements,
      read now (store (waitingTimeKey queue.id call)) ≠ some (.list elements))
    (calls : List String) :
    waitingTimes now queue calls store =
      (calls.filterMap fun call => WaitingTimes.get now store (waitingTimeKey queue.id call),
        store) := by
  induction calls with
  | nil => rfl
  | cons call calls ih =>
    rw [waitingTimes]
    cases found : WaitingTimes.get now store (waitingTimeKey queue.id call) with
    | some waitingTime =>
      simp only [ih, List.filterMap_cons, found]
    | none =>
      have nothing : lrem now store (waitingTimeKey queue.id call) call = store := by
        unfold lrem
        split
        · rename_i elements shape
          exact absurd shape (strings call elements)
        · rfl
      simp only [nothing, ih, List.filterMap_cons, found]

theorem Kept.strings {state : State} (kept : Kept queue state) (call : String)
    (elements : List String) :
    read state.now (state.store (waitingTimeKey queue.id call)) ≠ some (.list elements) := by
  rw [kept.records call state.now (Nat.le_refl _)]
  cases lasting state.now call state.answers with
  | none => exact nofun
  | some waitingTime =>
    rintro ⟨⟩

theorem Kept.asked {state : State} (kept : Kept queue state) :
    averageWaitingTime state.now state.store queue =
      (mean (((unbroken queue state.now state.answers).map Answer.call).reverse.filterMap
        fun call => lasting state.now call state.answers), state.store) := by
  unfold averageWaitingTime
  rw [waitingTimes_eq kept.strings, kept.lrange]
  simp only [kept.get]

theorem start_kept (now : ℕ) : Kept queue (State.start now) :=
  ⟨fun _ _ _ => rfl, fun _ _ => rfl⟩

theorem passed_kept {state : State} (kept : Kept queue state) (millis : ℕ) :
    Kept queue (step queue state (.passed millis)) :=
  ⟨fun call time later => kept.records call time (Nat.le_trans (Nat.le_add_right _ _) later),
    fun time later => kept.list time (Nat.le_trans (Nat.le_add_right _ _) later)⟩

theorem asked_kept {state : State} (kept : Kept queue state) :
    Kept queue (step queue state .asked) := by
  have same : step queue state .asked = state := by
    unfold step
    rw [kept.asked]
  rw [same]
  exact kept

theorem addWaitingTime_eq {now : ℕ} {store : Store} {call : String} {elapsed : ℕ}
    (waited : elapsed ≠ 0)
    (list : ∀ n, read now (store (waitingTimesKey queue.id)) ≠ some (.string n)) :
    addWaitingTime now store queue call elapsed =
      Function.update
        (Function.update store (waitingTimeKey queue.id call)
          (writeUntil (now + 1000 * elapsed) (.string elapsed)))
        (waitingTimesKey queue.id)
        (expireAt now (now + 1000 * queue.waitingTime)
          (edit now (pushed call) (store (waitingTimesKey queue.id)))) := by
  have apart := (waitingTimeKey_ne queue.id queue.id call).symm
  unfold addWaitingTime
  rw [setex, if_neg waited]
  simp only [rpush, Function.update_of_ne apart]
  rw [expire, Function.update_self, Function.update_idem]

theorem answered_kept {state : State} (kept : Kept queue state) (call : String) (elapsed : ℕ) :
    Kept queue (step queue state (.answered call elapsed)) := by
  by_cases zero : elapsed = 0
  · have same : addWaitingTime state.now state.store queue call elapsed = state.store := by
      rw [addWaitingTime, setex, if_pos zero]
    constructor
    · intro other time later
      have before := kept.records other time later
      simp only [step, same]
      rw [before, lasting, lasting, List.find?_cons_of_neg (by simp [zero])]
    · intro time later
      have before := kept.list time later
      simp only [step, same]
      rw [before, unbroken, if_pos zero]
  · have strings : ∀ n, read state.now (state.store (waitingTimesKey queue.id)) ≠
        some (.string n) := by
      intro n
      rw [kept.list state.now (Nat.le_refl _)]
      split
      · exact nofun
      · rintro ⟨⟩
    constructor
    · intro other time later
      have before := kept.records other time later
      simp only [step, addWaitingTime_eq zero strings]
      rw [Function.update_of_ne (waitingTimeKey_ne queue.id queue.id other)]
      by_cases same : call = other
      · subst same
        rw [Function.update_self, read_writeUntil, lasting,
          List.find?_cons_of_pos (by simp [zero]), Option.bind_some]
        split <;> rfl
      · have apart : waitingTimeKey queue.id other ≠ waitingTimeKey queue.id call :=
          fun keys => same (waitingTimeKey_inj keys).symm
        rw [Function.update_of_ne apart, before, lasting, lasting,
          List.find?_cons_of_neg (by simp [same])]
    · intro time later
      have before := kept.list state.now (Nat.le_refl _)
      simp only [step, addWaitingTime_eq zero strings]
      rw [Function.update_self, read_expireAt, read_edit_now, unbroken, if_neg zero, before]
      by_cases inTime : time < state.now + 1000 * queue.waitingTime
      · rw [if_pos inTime, if_pos inTime, if_neg (List.cons_ne_nil _ _)]
        split
        · rename_i none_
          rw [none_]
          rfl
        · simp [pushed]
      · rw [if_neg inTime, if_neg inTime, if_pos rfl]

theorem run_kept (now : ℕ) (events : List Event) :
    Kept queue (run queue (State.start now) events) := by
  have kept : ∀ (state : State), Kept queue state → Kept queue (run queue state events) := by
    induction events with
    | nil => exact fun state kept => kept
    | cons event events ih =>
      intro state kept
      refine ih _ ?_
      cases event with
      | answered call elapsed => exact answered_kept kept call elapsed
      | asked => exact asked_kept kept
      | passed millis => exact passed_kept kept millis
  exact kept _ (start_kept now)

end Invariant

section Steps
variable {queue : CallQueue}

/-- The answers are in the order of their times, none of which is still to come. -/
structure Ordered (state : State) : Prop where
  past : ∀ answer ∈ state.answers, answer.time ≤ state.now
  newestFirst : state.answers.Pairwise fun newer older => older.time ≤ newer.time

theorem step_ordered {state : State} (ordered : Ordered state) (event : Event) :
    Ordered (step queue state event) := by
  cases event with
  | answered call elapsed =>
    refine ⟨?_, List.pairwise_cons.mpr ⟨ordered.past, ordered.newestFirst⟩⟩
    intro answer member
    rcases List.mem_cons.mp member with rfl | older
    · exact Nat.le_refl _
    · exact ordered.past answer older
  | asked => exact ⟨ordered.past, ordered.newestFirst⟩
  | passed millis =>
    exact ⟨fun answer member => Nat.le_trans (ordered.past answer member) (Nat.le_add_right _ _),
      ordered.newestFirst⟩

theorem run_ordered (now : ℕ) (events : List Event) :
    Ordered (run queue (State.start now) events) := by
  have kept : ∀ (state : State), Ordered state → Ordered (run queue state events) := by
    induction events with
    | nil => exact fun state ordered => ordered
    | cons event events ih => exact fun state ordered => ih _ (step_ordered ordered event)
  exact kept _ ⟨by simp [State.start], List.Pairwise.nil⟩

def waited (answer : Answer) : Bool := answer.elapsed ≠ 0

/-- The recent calls that waited are joined to now. -/
theorem unbroken_recent {now time : ℕ} (order : time ≤ now) {answers : List Answer}
    (past : ∀ answer ∈ answers, answer.time ≤ now)
    (newestFirst : answers.Pairwise fun newer older => older.time ≤ newer.time) :
    (unbroken queue time answers).filter
        (fun answer => now < answer.time + 1000 * queue.waitingTime) =
      (answers.filter fun answer => now < answer.time + 1000 * queue.waitingTime).filter waited := by
  induction answers generalizing time with
  | nil => rfl
  | cons answer older ih =>
    obtain ⟨ownPast, pasts⟩ := List.forall_mem_cons.mp past
    obtain ⟨before, rest⟩ := List.pairwise_cons.mp newestFirst
    rw [unbroken]
    by_cases zero : answer.elapsed = 0
    · rw [if_pos zero, ih order pasts rest, List.filter_cons]
      split
      · rw [List.filter_cons_of_neg (by simp [waited, zero])]
      · rfl
    · rw [if_neg zero]
      by_cases joined : time < answer.time + 1000 * queue.waitingTime
      · rw [if_pos joined, List.filter_cons, List.filter_cons, ih ownPast pasts rest]
        split
        · rw [List.filter_cons_of_pos (by simp [waited, zero])]
        · rfl
      · rw [if_neg joined]
        have none_ : (answer :: older).filter
            (fun answer => now < answer.time + 1000 * queue.waitingTime) = [] := by
          refine List.filter_eq_nil_iff.mpr fun other member => ?_
          have earlier : other.time ≤ answer.time := by
            rcases List.mem_cons.mp member with rfl | later
            · exact Nat.le_refl _
            · exact before other later
          simp only [decide_eq_true_eq]
          omega
        rw [none_]
        rfl

theorem lasting_ne_zero {now : ℕ} {call : String} {answers : List Answer} :
    lasting now call answers ≠ some 0 := by
  unfold lasting
  intro zero
  obtain ⟨answer, found, left⟩ := Option.bind_eq_some_iff.mp zero
  have some_ := List.find?_some found
  simp only [ne_eq, Bool.decide_and, decide_not, Bool.and_eq_true, decide_eq_true_eq,
    Bool.not_eq_true', decide_eq_false_iff_not] at some_
  split at left
  · exact some_.2 (Option.some.inj left)
  · cases left

theorem filterMap_eq_map_iff {Item Other : Type} {f : Item → Option Other} {g : Item → Other}
    {items : List Item} (found : ∀ item ∈ items, (f item).isSome) :
    items.filterMap f = items.map g ↔ ∀ item ∈ items, f item = some (g item) := by
  induction items with
  | nil => simp
  | cons item items ih =>
    obtain ⟨own, later⟩ := List.forall_mem_cons.mp found
    obtain ⟨other, shape⟩ := Option.isSome_iff_exists.mp own
    rw [List.filterMap_cons_some shape, List.map_cons, List.cons.injEq, ih later,
      List.forall_mem_cons, shape, Option.some.injEq]

/-- What is asked for, by the answers. -/
theorem right_iff_live {state : State} (kept : Kept queue state) : Right queue state ↔
    (unbroken queue state.now state.answers).filterMap
        (fun answer => lasting state.now answer.call state.answers) =
      (recent queue state).map Answer.elapsed ∧
    ∀ answer ∈ unbroken queue state.now state.answers,
      (lasting state.now answer.call state.answers).isSome := by
  have samples : (waitingTimes state.now queue
      (lrange state.now state.store (waitingTimesKey queue.id)) state.store).1 =
      ((unbroken queue state.now state.answers).filterMap
        fun answer => lasting state.now answer.call state.answers).reverse := by
    rw [waitingTimes_eq kept.strings, kept.lrange]
    simp only [kept.get]
    rw [List.filterMap_reverse, List.filterMap_map]
    rfl
  constructor
  · rintro ⟨right, cleaned⟩
    rw [samples] at right
    refine ⟨List.reverse_inj.mp right, fun answer member => ?_⟩
    rw [← kept.get]
    refine cleaned answer.call ?_
    rw [kept.asked, kept.lrange]
    exact List.mem_reverse.mpr (List.mem_map_of_mem member)
  · rintro ⟨right, live⟩
    refine ⟨samples.trans (congrArg List.reverse right), fun call member => ?_⟩
    rw [kept.asked, kept.lrange] at member
    obtain ⟨answer, inside, rfl⟩ := List.mem_map.mp (List.mem_reverse.mp member)
    rw [kept.get]
    exact live answer inside

theorem right_iff_inStep {state : State} (kept : Kept queue state) (ordered : Ordered state) :
    Right queue state ↔ InStep queue state := by
  rw [right_iff_live kept]
  have joined := @unbroken_recent queue state.now state.now (Nat.le_refl _) state.answers
    ordered.past ordered.newestFirst
  constructor
  · rintro ⟨samples, live⟩
    have positive : ∀ answer ∈ recent queue state, waited answer := by
      intro answer member
      have sample : answer.elapsed ∈ (recent queue state).map Answer.elapsed :=
        List.mem_map_of_mem member
      rw [← samples] at sample
      obtain ⟨other, _, found⟩ := List.mem_filterMap.mp sample
      simp only [waited, ne_eq, decide_not, Bool.not_eq_true', decide_eq_false_iff_not]
      exact fun zero => lasting_ne_zero (zero ▸ found)
    have all : (recent queue state).filter waited = recent queue state :=
      List.filter_eq_self.mpr positive
    have whole : (unbroken queue state.now state.answers).filterMap
        (fun answer => lasting state.now answer.call state.answers) =
        (unbroken queue state.now state.answers).map
          fun answer => (lasting state.now answer.call state.answers).getD 0 := by
      refine (filterMap_eq_map_iff live).mpr fun answer member => ?_
      obtain ⟨found, shape⟩ := Option.isSome_iff_exists.mp (live answer member)
      rw [shape, Option.getD_some]
    have lengths := congrArg List.length (whole.symm.trans samples)
    have recent_ := joined.trans all
    rw [List.length_map, List.length_map, ← recent_] at lengths
    have inWindow := List.length_filter_eq_length_iff.mp lengths.symm
    have same : unbroken queue state.now state.answers = recent queue state :=
      (List.filter_eq_self.mpr inWindow).symm.trans recent_
    rw [same] at samples live
    exact ⟨(filterMap_eq_map_iff live).mp samples, fun answer member =>
      of_decide_eq_true (inWindow answer member)⟩
  · rintro ⟨recorded, inWindow⟩
    have positive : ∀ answer ∈ recent queue state, waited answer := by
      intro answer member
      simp only [waited, ne_eq, decide_not, Bool.not_eq_true', decide_eq_false_iff_not]
      exact fun zero => lasting_ne_zero (zero ▸ recorded answer member)
    have same : unbroken queue state.now state.answers = recent queue state := by
      rw [← List.filter_eq_self.mpr positive]
      refine Eq.trans ?_ joined
      exact (List.filter_eq_self.mpr fun answer member =>
        decide_eq_true (inWindow answer member)).symm
    rw [same]
    have live : ∀ answer ∈ recent queue state,
        (lasting state.now answer.call state.answers).isSome := by
      intro answer member
      rw [recorded answer member]
      rfl
    exact ⟨(filterMap_eq_map_iff live).mpr recorded, live⟩

/-- After any run, the average is that of the recent calls and the list is clean exactly where the
    records last as long as the window, which is where waiting times and pauses fit. -/
theorem average_iff (queue : CallQueue) (now : ℕ) (events : List Event) :
    (Right queue (run queue (State.start now) events) ↔
      InStep queue (run queue (State.start now) events)) ∧
    (Right queue (run queue (State.start now) events) →
      (averageWaitingTime (run queue (State.start now) events).now
        (run queue (State.start now) events).store queue).1 =
      mean ((recent queue (run queue (State.start now) events)).map Answer.elapsed).reverse) := by
  constructor
  · exact right_iff_inStep (run_kept now events) (run_ordered now events)
  · intro right
    exact congrArg mean right.samples

def hourly : CallQueue := ⟨"queue", 3600⟩

/-- A call that waited for five seconds is not counted any more after five seconds. -/
theorem record_gone : ¬ ∀ (queue : CallQueue) (now : ℕ) (events : List Event),
    Right queue (run queue (State.start now) events) := by
  intro always
  have right := always hourly 0 [.answered "call" 5, .passed 5000]
  have inStep := (right_iff_inStep (run_kept 0 _) (run_ordered 0 _)).mp right
  exact absurd inStep (by decide)

end Steps

end WaitingTimes
