import Mathlib.Algebra.GroupWithZero.Nat
import Mathlib.Logic.Function.Basic
import Nebula.Lib.Expiring
import Nebula.Lib.Runs

/- The answered time of the calls to a number, counted in one key that is gone after a day. Times
   are in milliseconds, the limit is in seconds. -/
namespace InboundLimit
open Expiring

section Model

def day : ℕ := 86400000

/-- Where the monitor of a call is: before the call is answered, before its first tick is due, up
    since the last tick, with the time since measured at a tick or at the hang-up, with the counter
    it was told, and at its end. -/
inductive Stage where
  | off
  | started
  | up (lastTick : ℕ)
  | ticked (lastTick time : ℕ)
  | left (lastTick time : ℕ)
  | counted (millis : ℕ) (overdue : Bool)
  | hungUp
  | ended
  deriving DecidableEq


/-- A time that a call has added to the counter. -/
structure Span where
  call : ℕ
  first : ℕ
  last : ℕ

/-- What was added since the key was created, and the calls that were up as the counter was at the
    limit, are no part of the code. -/
structure State where
  now : ℕ
  key : Cell ℕ
  calls : ℕ → Stage
  spans : List Span
  overdue : ℕ → Bool

def State.start (now : ℕ) : State := ⟨now, none, fun _ => .off, [], fun _ => false⟩

inductive Event where
  | answered (call : ℕ)
  | armed (call : ℕ)
  | tick (call : ℕ)
  | hangup (call : ℕ)
  | incrBy (call : ℕ)
  | decided (call : ℕ)
  | passed (millis : ℕ)

/-- The product of machine integers of 64 bits wraps. -/
def limitMillis (limit : Int) : Int := Int.bmod (limit * 1000) 0x10000000000000000

variable (limit : Int) (state : State)

/-- Whether a call is up and has a tick to come or to be counted. -/
def Stage.waits : Stage → Bool
  | .started | .up _ | .ticked _ _ => true
  | .counted millis _ => (millis : Int) < limitMillis limit
  | _ => false

def State.setCall (call : ℕ) (stage : Stage) : State :=
  { state with calls := Function.update state.calls call stage }

/-- The key is created unless there is one. -/
def setexnx (call : ℕ) : State :=
  let counter := (read state.now state.key).getD 0
  let overdue := Function.update state.overdue call (decide (limit * 1000 ≤ counter))
  match read state.now state.key with
  | none => { state with key := writeUntil (state.now + day) 0, spans := [], overdue }
  | some _ => { state with overdue }

/-- INCRBY creates a key that does not exist, without an end. -/
def incrBy (call lastTick time : ℕ) : State :=
  let millis := (read state.now state.key).getD 0 + (time - lastTick)
  { state with
    key := edit state.now (fun counter => counter.getD 0 + (time - lastTick)) state.key
    spans := (if (read state.now state.key).isSome then state.spans else []) ++
      [⟨call, lastTick, time⟩]
    overdue := fun other =>
      state.overdue other || (decide (limit * 1000 ≤ millis) && (state.calls other).waits limit) }

/-- After a tick the call is hung up or waits for the next. -/
def afterTick (now millis : ℕ) : Stage :=
  if (millis : Int) ≥ limitMillis limit then .hungUp else .up now

def machine : Runs.Machine State Event := fun state event =>
  match event with
  | .answered call =>
    if state.calls call = .off then some ((setexnx limit state call).setCall call .started)
    else none
  | .armed call =>
    if state.calls call = .started then some (state.setCall call (.up state.now)) else none
  | .tick call =>
    match state.calls call with
    | .up lastTick => some (state.setCall call (.ticked lastTick state.now))
    | _ => none
  | .hangup call =>
    match state.calls call with
    | .up lastTick => some (state.setCall call (.left lastTick state.now))
    | _ => none
  | .incrBy call =>
    match state.calls call with
    | .ticked lastTick time =>
      some ((incrBy limit state call lastTick time).setCall call
        (.counted ((read state.now state.key).getD 0 + (time - lastTick)) (state.overdue call)))
    | .left lastTick time =>
      some ((incrBy limit state call lastTick time).setCall call .ended)
    | _ => none
  | .decided call =>
    match state.calls call with
    | .counted millis _ => some (state.setCall call (afterTick limit state.now millis))
    | _ => none
  | .passed millis => some { state with now := state.now + millis }

end Model

section Claimed
variable (limit : Int)

def total (spans : List Span) : ℕ := (spans.map fun span => span.last - span.first).sum

structure Right (state : State) : Prop where
  expiry : ∀ entry ∈ live state.now state.key,
    ∃ ends ∈ entry.ends, ends ≤ state.now + day
  counter : ∀ counter ∈ read state.now state.key, counter = total state.spans
  once : state.spans.Pairwise fun earlier later =>
    earlier.call = later.call → earlier.last ≤ later.first
  hungUp : ∀ call millis, state.calls call = .counted millis true →
    ∀ now, afterTick limit now millis = .hungUp

/-- The key is there as a call adds to it, and is not created while a call is up that has been up
    as the counter was at the limit. -/
def Lasting : Runs.Guard State Event := fun state event =>
  match event with
  | .incrBy _ => (read state.now state.key).isSome
  | .answered _ => read state.now state.key = none →
    ∀ call, state.overdue call → (state.calls call).waits limit = false
  | _ => True

end Claimed

section Invariant
variable {limit : Int} {state after : State}

/-- Up to when the time of a call may have been added. -/
def Stage.reach (now : ℕ) : Stage → ℕ
  | .up lastTick | .ticked lastTick _ | .left lastTick _ => lastTick
  | _ => now

/-- The times that a stage holds are in order. -/
def Stage.ordered (now : ℕ) : Stage → Prop
  | .up lastTick => lastTick ≤ now
  | .ticked lastTick time | .left lastTick time => lastTick ≤ time ∧ time ≤ now
  | _ => True

structure Kept (limit : Int) (state : State) : Prop where
  ends : ∀ entry ∈ state.key, ∃ ends ∈ entry.ends, ends ≤ state.now + day
  counter : ∀ entry ∈ state.key, entry.value = total state.spans
  reached : ∀ span ∈ state.spans, span.last ≤ (state.calls span.call).reach state.now
  once : state.spans.Pairwise fun earlier later =>
    earlier.call = later.call → earlier.last ≤ later.first
  ordered : ∀ call, (state.calls call).ordered state.now
  overdue : ∀ call, state.overdue call → (state.calls call).waits limit →
    ∀ entry ∈ live state.now state.key, limit * 1000 ≤ (entry.value : Int)
  told : ∀ call millis, state.calls call = .counted millis true → limit * 1000 ≤ (millis : Int)

theorem limitMillis_le (positive : 0 < limit) : limitMillis limit ≤ limit * 1000 := by
  unfold limitMillis
  rw [Int.bmod_def]
  split <;> omega

theorem Kept.right (kept : Kept limit state) (positive : 0 < limit) : Right limit state where
  expiry := fun entry left => kept.ends entry (Option.filter_eq_some_iff.mp left).1
  counter := by
    intro counter found
    obtain ⟨entry, left, rfl⟩ := Option.map_eq_some_iff.mp found
    exact kept.counter entry (Option.filter_eq_some_iff.mp left).1
  once := kept.once
  hungUp := by
    intro call millis counted now
    have reached := Int.le_trans (limitMillis_le positive) (kept.told call millis counted)
    rw [afterTick, if_pos reached]

theorem start_kept (now : ℕ) : Kept limit (State.start now) where
  ends := nofun
  counter := nofun
  reached := nofun
  once := List.Pairwise.nil
  ordered := fun _ => trivial
  overdue := nofun
  told := nofun

theorem passed_kept (kept : Kept limit state) (millis : ℕ) :
    Kept limit { state with now := state.now + millis } := by
  have later : state.now ≤ state.now + millis := Nat.le_add_right _ _
  refine ⟨fun entry found => ?_, kept.counter, fun span member => ?_, kept.once, fun call => ?_,
    fun call late waits entry left => ?_, kept.told⟩
  · obtain ⟨ends, own, bound⟩ := kept.ends entry found
    exact ⟨ends, own, Nat.le_trans bound (Nat.add_le_add_right later day)⟩
  · have reached := kept.reached span member
    cases stage : state.calls span.call <;> simp only [stage, Stage.reach] at reached ⊢ <;> omega
  · have ordered := kept.ordered call
    cases stage : state.calls call <;> simp only [stage, Stage.ordered] at ordered ⊢ <;> omega
  · exact kept.overdue call late waits entry (live_earlier later left)

theorem setCall_same {call : ℕ} {stage : Stage} :
    (state.setCall call stage).calls call = stage := Function.update_self _ _ _

theorem setCall_other {call other : ℕ} {stage : Stage} (apart : other ≠ call) :
    (state.setCall call stage).calls other = state.calls other :=
  Function.update_of_ne apart _ _

/-- A call goes on and the key stays. -/
theorem setCall_kept (kept : Kept limit state) {call : ℕ} {stage : Stage}
    (reached : ∀ span ∈ state.spans, span.call = call → span.last ≤ stage.reach state.now)
    (ordered : stage.ordered state.now)
    (overdue : state.overdue call → stage.waits limit →
      ∀ entry ∈ live state.now state.key, limit * 1000 ≤ (entry.value : Int))
    (told : ∀ millis, stage = .counted millis true → limit * 1000 ≤ (millis : Int)) :
    Kept limit (state.setCall call stage) := by
  refine ⟨kept.ends, kept.counter, fun span member => ?_, kept.once, fun other => ?_,
    fun other late still entry left => ?_, fun other millis counted => ?_⟩
  · by_cases own : span.call = call
    · rw [own, setCall_same]
      exact reached span member own
    · rw [setCall_other own]
      exact kept.reached span member
  · by_cases own : other = call
    · rw [own, setCall_same]
      exact ordered
    · rw [setCall_other own]
      exact kept.ordered other
  · by_cases own : other = call
    · subst own
      rw [setCall_same] at still
      exact overdue late still entry left
    · rw [setCall_other own] at still
      exact kept.overdue other late still entry left
  · by_cases own : other = call
    · subst own
      rw [setCall_same] at counted
      exact told millis counted
    · rw [setCall_other own] at counted
      exact kept.told other millis counted

theorem armed_kept (kept : Kept limit state) {call : ℕ} (stage : state.calls call = .started) :
    Kept limit (state.setCall call (.up state.now)) := by
  refine setCall_kept kept (fun span member own => ?_) (Nat.le_refl _)
    (fun late _ => kept.overdue call late (by rw [stage]; rfl)) nofun
  have reached := kept.reached span member
  rw [own, stage] at reached
  exact reached

/-- The time since the last tick is measured. -/
theorem measured_kept (kept : Kept limit state) {call lastTick : ℕ} {stage : Stage}
    (before : state.calls call = .up lastTick) (reach : stage.reach state.now = lastTick)
    (ordered : lastTick ≤ state.now → stage.ordered state.now)
    (uncounted : ∀ millis, stage ≠ .counted millis true) :
    Kept limit (state.setCall call stage) := by
  refine setCall_kept kept (fun span member own => ?_) ?_
    (fun late _ => kept.overdue call late (by rw [before]; rfl))
    fun millis counted => absurd counted (uncounted millis)
  · have reached := kept.reached span member
    rw [own, before] at reached
    rw [reach]
    exact reached
  · have inOrder := kept.ordered call
    rw [before] at inOrder
    exact ordered inOrder

theorem decided_kept (kept : Kept limit state) {call millis : ℕ} {late : Bool}
    (before : state.calls call = .counted millis late) :
    Kept limit (state.setCall call (afterTick limit state.now millis)) := by
  have past : ∀ span ∈ state.spans, span.call = call → span.last ≤ state.now := by
    intro span member own
    have reached := kept.reached span member
    rw [own, before] at reached
    exact reached
  by_cases full : (millis : Int) ≥ limitMillis limit
  · rw [afterTick, if_pos full]
    exact setCall_kept kept past trivial (fun _ => nofun) nofun
  · rw [afterTick, if_neg full]
    refine setCall_kept kept past (Nat.le_refl _) (fun late _ => kept.overdue call late ?_) nofun
    rw [before]
    exact decide_eq_true (Int.not_le.mp full)

theorem live_of_read {counter : ℕ} (found : read state.now state.key = some counter) :
    ∃ entry, live state.now state.key = some entry ∧ state.key = some entry ∧
      entry.value = counter := by
  obtain ⟨entry, left, value⟩ := Option.map_eq_some_iff.mp found
  exact ⟨entry, left, (Option.filter_eq_some_iff.mp left).1, value⟩

/-- A call that is answered is up since the counter was at the limit if the counter is. -/
theorem setexnx_kept (positive : 0 < limit) (kept : Kept limit state) {call : ℕ}
    (before : state.calls call = .off) (lasting : Lasting limit state (.answered call)) :
    Kept limit ((setexnx limit state call).setCall call .started) := by
  cases found : read state.now state.key with
  | none =>
    have early : ¬limit * 1000 ≤ ((0 : ℕ) : Int) := by omega
    have made : setexnx limit state call = { state with
        key := writeUntil (state.now + day) 0, spans := []
        overdue := Function.update state.overdue call false } := by
      simp only [setexnx, found, Option.getD_none, decide_eq_false early]
    have created : Kept limit (setexnx limit state call) := by
      rw [made]
      refine ⟨?_, ?_, fun _ member => absurd member List.not_mem_nil, List.Pairwise.nil,
        kept.ordered, fun other late waits => ?_, kept.told⟩
      · rintro entry ⟨⟩
        exact ⟨state.now + day, rfl, Nat.le_refl _⟩
      · rintro entry ⟨⟩
        rfl
      · dsimp only at late
        by_cases own : other = call
        · rw [own, Function.update_self] at late
          cases late
        · rw [Function.update_of_ne own] at late
          exact absurd ((lasting found other late).symm.trans waits) nofun
    refine @setCall_kept limit _ created call .started ?_ trivial (fun late => ?_) nofun
    · rw [made]
      exact fun _ member => absurd member List.not_mem_nil
    · rw [made] at late
      dsimp only at late
      rw [Function.update_self] at late
      cases late
  | some counter =>
    obtain ⟨own, left, _, value⟩ := live_of_read found
    have made : setexnx limit state call = { state with
        overdue := Function.update state.overdue call (decide (limit * 1000 ≤ counter)) } := by
      simp only [setexnx, found, Option.getD_some]
    have past : ∀ span ∈ state.spans, span.call = call → span.last ≤ state.now := by
      intro span member same
      have reached := kept.reached span member
      rw [same, before] at reached
      exact reached
    rw [made]
    have marked : Kept limit { state with
        overdue := Function.update state.overdue call (decide (limit * 1000 ≤ counter)) } := by
      refine ⟨kept.ends, kept.counter, kept.reached, kept.once, kept.ordered,
        fun other late waits => ?_, kept.told⟩
      dsimp only at late waits
      by_cases same : other = call
      · rw [same, before] at waits
        cases waits
      · rw [Function.update_of_ne same] at late
        exact kept.overdue other late waits
    refine @setCall_kept limit _ marked call .started past trivial (fun late _ entry there => ?_)
      nofun
    dsimp only at late
    rw [Function.update_self] at late
    obtain rfl := Option.some.inj (left.symm.trans there)
    rw [value]
    exact of_decide_eq_true late

theorem incrBy_eq {call lastTick time : ℕ} {entry : Entry ℕ}
    (left : live state.now state.key = some entry) :
    incrBy limit state call lastTick time = { state with
      key := some ⟨entry.value + (time - lastTick), entry.ends⟩
      spans := state.spans ++ [⟨call, lastTick, time⟩]
      overdue := fun other => state.overdue other ||
        (decide (limit * 1000 ≤ ((entry.value + (time - lastTick) : ℕ) : Int)) &&
          (state.calls other).waits limit) } := by
  have found : read state.now state.key = some entry.value := by
    rw [Expiring.read, left, Option.map_some]
  have key : edit state.now (fun counter => counter.getD 0 + (time - lastTick)) state.key =
      some ⟨entry.value + (time - lastTick), entry.ends⟩ := by
    simp only [edit, found, left, Option.getD_some, Option.bind_some]
  simp only [incrBy, key, found, Option.getD_some, Option.isSome_some, if_true]

theorem total_append (spans : List Span) (span : Span) :
    total (spans ++ [span]) = total spans + (span.last - span.first) := by
  simp [total]

/-- A call adds the time since its last tick, and none of it again. -/
theorem incrBy_kept (kept : Kept limit state) {call lastTick time : ℕ} {stage : Stage}
    {entry : Entry ℕ} (left : live state.now state.key = some entry)
    (reach : (state.calls call).reach state.now = lastTick)
    (ordered : lastTick ≤ time ∧ time ≤ state.now)
    (after : stage.reach state.now = state.now) (inOrder : stage.ordered state.now)
    (waits : stage.waits limit → (state.calls call).waits limit)
    (told : ∀ millis, stage = .counted millis true → limit * 1000 ≤ (millis : Int)) :
    Kept limit ((incrBy limit state call lastTick time).setCall call stage) := by
  have stored := (Option.filter_eq_some_iff.mp left).1
  rw [incrBy_eq left]
  refine ⟨?_, ?_, fun span member => ?_, ?_, fun other => ?_, fun other late still => ?_,
    fun other millis counted => ?_⟩
  · rintro own ⟨⟩
    exact kept.ends entry stored
  · rintro own ⟨⟩
    rw [State.setCall, total_append, kept.counter entry stored]
  · by_cases own : span.call = call
    · rw [own, setCall_same]
      refine Nat.le_trans ?_ (Nat.le_of_eq after.symm)
      rcases List.mem_append.mp member with earlier | new
      · have reached := kept.reached span earlier
        rw [own, reach] at reached
        exact Nat.le_trans reached (Nat.le_trans ordered.1 ordered.2)
      · rw [List.mem_singleton.mp new]
        exact ordered.2
    · rw [setCall_other own]
      rcases List.mem_append.mp member with earlier | new
      · exact kept.reached span earlier
      · rw [List.mem_singleton.mp new] at own
        exact absurd rfl own
  · refine List.pairwise_append.mpr ⟨kept.once, List.pairwise_singleton _ _, ?_⟩
    intro earlier member later new same
    rw [List.mem_singleton.mp new] at same ⊢
    have reached := kept.reached earlier member
    rw [same, reach] at reached
    exact reached
  · by_cases own : other = call
    · rw [own, setCall_same]
      exact inOrder
    · rw [setCall_other own]
      exact kept.ordered other
  · have before : (state.calls other).waits limit := by
      by_cases own : other = call
      · rw [own, setCall_same] at still
        rw [own]
        exact waits still
      · rw [setCall_other own] at still
        exact still
    have full : limit * 1000 ≤ ((entry.value + (time - lastTick) : ℕ) : Int) := by
      rcases Bool.or_eq_true_iff.mp late with earlier | new
      · have reached := kept.overdue other earlier before entry left
        omega
      · exact of_decide_eq_true (Bool.and_eq_true_iff.mp new).1
    intro own there
    obtain rfl := Option.some.inj (Option.filter_eq_some_iff.mp there).1
    exact full
  · by_cases own : other = call
    · subst own
      rw [setCall_same] at counted
      exact told millis counted
    · rw [setCall_other own] at counted
      exact kept.told other millis counted

theorem step_kept (positive : 0 < limit) {event : Event} (kept : Kept limit state)
    (lasting : Lasting limit state event) (stepped : machine limit state event = some after) :
    Kept limit after := by
  cases event with
  | answered call =>
    simp only [machine] at stepped
    split at stepped <;> cases stepped
    exact setexnx_kept positive kept ‹_› lasting
  | armed call =>
    simp only [machine] at stepped
    split at stepped <;> cases stepped
    exact armed_kept kept ‹_›
  | tick call =>
    simp only [machine] at stepped
    split at stepped <;> cases stepped
    exact measured_kept kept ‹_› rfl (fun order => ⟨order, Nat.le_refl _⟩) nofun
  | hangup call =>
    simp only [machine] at stepped
    split at stepped <;> cases stepped
    exact measured_kept kept ‹_› rfl (fun order => ⟨order, Nat.le_refl _⟩) nofun
  | incrBy call =>
    obtain ⟨counter, found⟩ := Option.isSome_iff_exists.mp lasting
    obtain ⟨entry, left, _, value⟩ := live_of_read found
    simp only [machine] at stepped
    split at stepped <;> cases stepped
    · rename_i lastTick time before
      have ordered := kept.ordered call
      rw [before] at ordered
      refine incrBy_kept kept left (by rw [before]; rfl) ordered rfl trivial
        (fun _ => by rw [before]; rfl) ?_
      rintro millis counted
      obtain ⟨told, late⟩ := Stage.counted.inj counted
      have reached := kept.overdue call late (by rw [before]; rfl) entry left
      rw [found, Option.getD_some] at told
      omega
    · rename_i lastTick time before
      have ordered := kept.ordered call
      rw [before] at ordered
      exact incrBy_kept kept left (by rw [before]; rfl) ordered rfl trivial nofun nofun
  | decided call =>
    simp only [machine] at stepped
    split at stepped <;> cases stepped
    exact decided_kept kept ‹_›
  | passed millis =>
    cases stepped
    exact passed_kept kept millis

end Invariant

section Runs

/-- The counter is right where its key lasts as long as a call adds to it, and is not made anew
    under the calls that have reached the limit. -/
theorem limit_right (limit : Int) (positive : 0 < limit) (now : ℕ) (state : State)
    (run : Runs.Run (machine limit) (Lasting limit) (State.start now) state) :
    Right limit state := by
  have kept : Kept limit state := Runs.run_keeps (Kept limit) (start_kept now)
    (fun _ _ _ before lasting stepped => step_kept positive before lasting stepped) run
  exact kept.right positive

theorem limit_right_tick : ∃ state, Right 60 state ∧
    Expiring.read state.now state.key = some 10000 := by
  have answered : Runs.Run (machine 60) (Lasting 60) (State.start 0) _ :=
    Runs.Run.next Runs.Run.start (show Lasting 60 _ (.answered 0) from fun _ _ => nofun) rfl
  have armed := Runs.Run.next answered (show Lasting 60 _ (.armed 0) from trivial) rfl
  have passed := Runs.Run.next armed (show Lasting 60 _ (.passed 10000) from trivial) rfl
  have tick := Runs.Run.next passed (show Lasting 60 _ (.tick 0) from trivial) rfl
  have added := Runs.Run.next tick (show Lasting 60 _ (.incrBy 0) from rfl) rfl
  exact ⟨_, limit_right 60 (by decide) 0 _ added, rfl⟩

/-- A call that is answered a second before the key of another call ends. -/
def lateCall : List Event :=
  [.answered 0, .armed 0, .hangup 0, .incrBy 0, .passed 86399000, .answered 1, .armed 1,
    .passed 10000, .tick 1, .incrBy 1]

/-- The key that the second call makes anew has no end. -/
theorem key_endless : ¬∀ (limit : Int) (now : ℕ) (state : State), 0 < limit →
    Runs.Reaches (machine limit) (State.start now) state → Right limit state := by
  intro always
  have outcome : (Runs.runAll (machine 60) (State.start 0) lateCall).any fun state =>
      (live state.now state.key).any fun entry => entry.ends.isNone := by
    decide
  cases ran : Runs.runAll (machine 60) (State.start 0) lateCall with
  | none =>
    rw [ran] at outcome
    cases outcome
  | some state =>
    rw [ran] at outcome
    have inner : (live state.now state.key).any fun entry => entry.ends.isNone := outcome
    obtain ⟨entry, left, endless⟩ := (Option.any_eq_true _ _).mp inner
    have right := always 60 0 state (by decide) (Runs.reaches_of_runAll lateCall ran)
    obtain ⟨ends, found, _⟩ := right.expiry entry left
    rw [Option.isNone_iff_eq_none.mp endless] at found
    cases found

end Runs

end InboundLimit
