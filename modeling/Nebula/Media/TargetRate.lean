import Mathlib.Algebra.GroupWithZero.Nat
import Mathlib.Order.Lattice
import Mathlib.Order.Defs.LinearOrder
import Mathlib.Tactic.Common
import Nebula.Lib.Transducer

/- The target send rate of the congestion controller. It follows the direction of the delays
   and is kept between the bounds of the configuration. The arithmetic of rates, which goes
   through floats, is a parameter; instants and durations are nanoseconds. -/
namespace TargetRate
open Transducer

inductive DelayDirection where
  | Increasing
  | Decreasing
  | Steady
  deriving DecidableEq

/-- The operations on rates. Only that a half is not above the whole is relied on. -/
structure RateArithmetic (Rate : Type) [LinearOrder Rate] where
  fromKbps : ℕ → Rate
  plus : Rate → Rate → Rate
  saturatingSub : Rate → Rate → Rate
  timesHalf : Rate → Rate
  twice : Rate → Rate
  halved : Rate → Rate
  discounted : Rate → Rate
  timesMultiplier : Rate → Bool → ℕ → Rate
  additiveIncreasePer : ℕ → Rate
  timesSecs : Rate → ℕ → Rate
  initialVariance : Rate
  movingAverage : Rate → Rate → Rate
  nextVariance : Rate → Rate → Rate → Rate
  relativeBound : Rate → Rate → Rate
  halved_le : ∀ rate, halved rate ≤ rate

structure Config (Rate : Type) where
  initialTargetSendRate : Rate
  minTargetSendRate : Rate
  maxTargetSendRate : Rate

structure Request (Rate : Type) where
  base : Rate
  ideal : Rate

structure RateAverager (Rate : Type) where
  average : Option Rate
  variance : Rate

structure TargetCalculator (Rate : Type) where
  ackedRate : Option Rate
  ackedRateWhenOverusing : RateAverager Rate
  config : Config Rate
  previousDirection : Option DelayDirection
  requested : Request Rate
  rtt : ℕ
  targetSendRate : Rate
  targetSendRateUpdated : ℕ

/-- What a call of `next` is given. -/
structure Input (Rate : Type) where
  request : Option (Request Rate)
  delayDirections : Option (ℕ × DelayDirection)
  rtt : Option ℕ
  ackedRate : Option Rate

def ADDITIVE_INCREASE_RTT_PAD : ℕ := 100000000
def MIN_RTT_FOR_DECREASE : ℕ := 10000000
def MAX_RTT_FOR_DECREASE : ℕ := 200000000

section
variable {Rate : Type} [LinearOrder Rate]

def clampTargetSendRate (config : Config Rate) (rate : Rate) : Rate :=
  if rate < config.minTargetSendRate then config.minTargetSendRate
  else if config.maxTargetSendRate < rate then config.maxTargetSendRate
  else rate

variable (rates : RateArithmetic Rate)

def RateAverager.new : RateAverager Rate := ⟨none, rates.initialVariance⟩

def RateAverager.addSample (averager : RateAverager Rate) (sample : Rate) : RateAverager Rate :=
  let average :=
    match averager.average with
    | some average => rates.movingAverage average sample
    | none => sample
  ⟨some average, rates.nextVariance averager.variance average sample⟩

def RateAverager.resetIfSampleOutOfBounds (averager : RateAverager Rate) (sample : Rate) :
    RateAverager Rate :=
  match averager.average with
  | some average =>
    let bound := rates.relativeBound averager.variance average
    if rates.plus average bound < sample ∨ sample < rates.saturatingSub average bound then
      RateAverager.new rates
    else averager
  | none => averager

namespace TargetCalculator

def new (config : Config Rate) (startTime : ℕ) : TargetCalculator Rate where
  ackedRate := none
  ackedRateWhenOverusing := RateAverager.new rates
  config := config
  previousDirection := none
  requested := ⟨config.initialTargetSendRate, config.maxTargetSendRate⟩
  rtt := 100000000
  targetSendRate := config.initialTargetSendRate
  targetSendRateUpdated := startTime

/-- The new RTT and acked rate are kept, if there are any. -/
def measured (calculator : TargetCalculator Rate) (input : Input Rate) : TargetCalculator Rate :=
  { calculator with
    rtt := input.rtt.getD calculator.rtt
    ackedRate := match input.ackedRate with
      | some rate => some rate
      | none => calculator.ackedRate }

/-- Takes a request, and whether the target is reset to the initial rate by it. -/
def taken (calculator : TargetCalculator Rate) (request : Option (Request Rate)) :
    TargetCalculator Rate × Bool :=
  match request with
  | none => (calculator, false)
  | some request =>
    let tinySendRate := rates.fromKbps 150
    let initialTargetSendRate :=
      max calculator.config.initialTargetSendRate (rates.timesHalf request.base)
    if calculator.requested.ideal ≤ tinySendRate ∧ ¬ request.ideal ≤ tinySendRate ∧
        calculator.targetSendRate < initialTargetSendRate then
      ({ calculator with requested := request, targetSendRate := initialTargetSendRate }, true)
    else ({ calculator with requested := request }, false)

/-- While the delay is steady, the rate increases. -/
def steady (calculator : TargetCalculator Rate) (now : ℕ) : TargetCalculator Rate × Rate :=
  let overusing :=
    match calculator.ackedRate with
    | some ackedRate =>
      calculator.ackedRateWhenOverusing.resetIfSampleOutOfBounds rates ackedRate
    | none => calculator.ackedRateWhenOverusing
  let increaseDuration :=
    if calculator.previousDirection ≠ some .Steady then 0
    else now - calculator.targetSendRateUpdated
  let increase :=
    match overusing.average with
    | none => max (rates.fromKbps 1) (rates.timesMultiplier calculator.targetSendRate
        (decide (calculator.targetSendRate < calculator.requested.base)) increaseDuration)
    | some _ => rates.timesSecs (max (rates.fromKbps 4)
        (rates.additiveIncreasePer (calculator.rtt + ADDITIVE_INCREASE_RTT_PAD))) increaseDuration
  let increased := rates.plus calculator.targetSendRate increase
  let limited :=
    match calculator.ackedRate with
    | some ackedRate =>
      min (rates.plus (rates.twice ackedRate) (rates.fromKbps 5000)) increased
    | none => increased
  ({ calculator with ackedRateWhenOverusing := overusing },
    max calculator.targetSendRate limited)

/-- While the delay is increasing, the rate decreases, though not again within an RTT unless the
    acked rate is low. -/
def increasing (calculator : TargetCalculator Rate) (now : ℕ) :
    TargetCalculator Rate × Option Rate :=
  match calculator.ackedRate with
  | some ackedRate =>
    if calculator.targetSendRateUpdated +
          max MIN_RTT_FOR_DECREASE (min calculator.rtt MAX_RTT_FOR_DECREASE) ≤ now ∨
        ackedRate ≤ rates.timesHalf calculator.targetSendRate then
      let discounted := rates.discounted ackedRate
      let decreased :=
        match calculator.ackedRateWhenOverusing.average with
        | some average =>
          if calculator.targetSendRate < discounted then rates.discounted average else discounted
        | none => discounted
      let overusing :=
        (calculator.ackedRateWhenOverusing.resetIfSampleOutOfBounds rates ackedRate).addSample
          rates ackedRate
      ({ calculator with ackedRateWhenOverusing := overusing },
        some (min calculator.targetSendRate decreased))
    else (calculator, none)
  | none => (calculator, some (rates.halved calculator.targetSendRate))

def changed (calculator : TargetCalculator Rate) (now : ℕ) :
    DelayDirection → TargetCalculator Rate × Option Rate
  | .Decreasing => (calculator, none)
  | .Steady =>
    let (after, rate) := calculator.steady rates now
    (after, some rate)
  | .Increasing => calculator.increasing rates now

/-- The target is set where it has changed or has been reset. -/
def settle (calculator : TargetCalculator Rate) (now : ℕ) (direction : DelayDirection)
    (change : Option Rate) (reset : Bool) : TargetCalculator Rate × Option Rate :=
  let calculator := { calculator with previousDirection := some direction }
  if change.isSome ∨ reset then
    let target := clampTargetSendRate calculator.config (change.getD calculator.targetSendRate)
    ({ calculator with targetSendRate := target, targetSendRateUpdated := now }, some target)
  else (calculator, none)

def next : Step (TargetCalculator Rate) (Input Rate) Rate
  | calculator, input =>
    let measured := calculator.measured input
    match input.delayDirections with
    | none => (measured, none)
    | some (now, direction) =>
      let (requesting, reset) := measured.taken rates input.request
      let (moved, change) := requesting.changed rates now direction
      moved.settle now direction change reset

/-- Whether a call resets the target to the initial rate. -/
def resets (calculator : TargetCalculator Rate) (input : Input Rate) : Bool :=
  input.delayDirections.isSome && ((calculator.measured input).taken rates input.request).2

/-- Whether a call finds it time to decrease. -/
def due (calculator : TargetCalculator Rate) (input : Input Rate) (now : ℕ) : Prop :=
  ∀ ackedRate ∈ (calculator.measured input).ackedRate,
    calculator.targetSendRateUpdated + max MIN_RTT_FOR_DECREASE
        (min (calculator.measured input).rtt MAX_RTT_FOR_DECREASE) ≤ now ∨
      ackedRate ≤ rates.timesHalf calculator.targetSendRate

end TargetCalculator

/-- What a step does to the target. -/
structure StepLaw (calculator : TargetCalculator Rate) (input : Input Rate) : Prop where
  decreasing : ∀ now, input.delayDirections = some (now, .Decreasing) →
    calculator.resets rates input = false →
    (calculator.next rates input).1.targetSendRate = calculator.targetSendRate
  steady : ∀ now, input.delayDirections = some (now, .Steady) →
    calculator.resets rates input = false →
    calculator.targetSendRate ≤ (calculator.next rates input).1.targetSendRate
  increasing : ∀ now, input.delayDirections = some (now, .Increasing) →
    calculator.resets rates input = false →
    (calculator.next rates input).1.targetSendRate ≤ calculator.targetSendRate
  told : ∀ rate, (calculator.next rates input).2 = some rate →
    rate = (calculator.next rates input).1.targetSendRate
  kept : (calculator.next rates input).2 = none →
    (calculator.next rates input).1.targetSendRate = calculator.targetSendRate ∧
      (calculator.next rates input).1.targetSendRateUpdated = calculator.targetSendRateUpdated
  set : (calculator.next rates input).2 ≠ none ↔ ∃ now direction,
    input.delayDirections = some (now, direction) ∧
      (calculator.resets rates input = true ∨ direction = .Steady ∨
        direction = .Increasing ∧ calculator.due rates input now)

end

section
variable {Rate : Type} [LinearOrder Rate]

theorem clamp_bounds {config : Config Rate}
    (bounds : config.minTargetSendRate ≤ config.maxTargetSendRate) (rate : Rate) :
    config.minTargetSendRate ≤ clampTargetSendRate config rate ∧
      clampTargetSendRate config rate ≤ config.maxTargetSendRate := by
  unfold clampTargetSendRate
  split
  · exact ⟨le_refl _, bounds⟩
  · rename_i notLow
    split
    · exact ⟨bounds, le_refl _⟩
    · rename_i notHigh
      exact ⟨not_lt.mp notLow, not_lt.mp notHigh⟩

theorem le_clamp {config : Config Rate} {low rate : Rate} (below : low ≤ rate)
    (top : low ≤ config.maxTargetSendRate) : low ≤ clampTargetSendRate config rate := by
  unfold clampTargetSendRate
  split
  · rename_i small
    exact le_trans below (le_of_lt small)
  · split
    · exact top
    · exact below

theorem clamp_le {config : Config Rate} {high rate : Rate} (above : rate ≤ high)
    (bottom : config.minTargetSendRate ≤ high) : clampTargetSendRate config rate ≤ high := by
  unfold clampTargetSendRate
  split
  · exact bottom
  · split
    · rename_i large
      exact le_trans (le_of_lt large) above
    · exact above

/-- What the parts of a step before the last leave as it is. -/
structure Frame (before after : TargetCalculator Rate) : Prop where
  config : after.config = before.config
  target : after.targetSendRate = before.targetSendRate
  updated : after.targetSendRateUpdated = before.targetSendRateUpdated

omit [LinearOrder Rate] in
theorem Frame.trans {first second third : TargetCalculator Rate} (one : Frame first second)
    (two : Frame second third) : Frame first third :=
  ⟨two.config.trans one.config, two.target.trans one.target, two.updated.trans one.updated⟩

omit [LinearOrder Rate] in
theorem measured_frame (calculator : TargetCalculator Rate) (input : Input Rate) :
    Frame calculator (calculator.measured input) := ⟨rfl, rfl, rfl⟩

variable (rates : RateArithmetic Rate)

theorem taken_config (calculator : TargetCalculator Rate) (request : Option (Request Rate)) :
    (calculator.taken rates request).1.config = calculator.config := by
  unfold TargetCalculator.taken
  cases request with
  | none => rfl
  | some request =>
    dsimp only
    split_ifs <;> rfl

theorem taken_frame {calculator : TargetCalculator Rate} {request : Option (Request Rate)}
    (kept : (calculator.taken rates request).2 = false) :
    Frame calculator (calculator.taken rates request).1 := by
  unfold TargetCalculator.taken at kept ⊢
  cases request with
  | none => exact ⟨rfl, rfl, rfl⟩
  | some request =>
    dsimp only at kept ⊢
    split_ifs at kept ⊢
    exact ⟨rfl, rfl, rfl⟩

theorem taken_measures (calculator : TargetCalculator Rate) (request : Option (Request Rate)) :
    (calculator.taken rates request).1.rtt = calculator.rtt ∧
      (calculator.taken rates request).1.ackedRate = calculator.ackedRate := by
  unfold TargetCalculator.taken
  cases request with
  | none => exact ⟨rfl, rfl⟩
  | some request =>
    dsimp only
    split_ifs <;> exact ⟨rfl, rfl⟩

theorem changed_frame (calculator : TargetCalculator Rate) (now : ℕ)
    (direction : DelayDirection) : Frame calculator (calculator.changed rates now direction).1 := by
  cases direction with
  | Decreasing => exact ⟨rfl, rfl, rfl⟩
  | Steady => exact ⟨rfl, rfl, rfl⟩
  | Increasing =>
    unfold TargetCalculator.changed TargetCalculator.increasing
    dsimp only
    split
    · split <;> exact ⟨rfl, rfl, rfl⟩
    · exact ⟨rfl, rfl, rfl⟩

theorem steady_change (calculator : TargetCalculator Rate) (now : ℕ) :
    ∃ rate, (calculator.changed rates now .Steady).2 = some rate ∧
      calculator.targetSendRate ≤ rate :=
  ⟨_, rfl, le_max_left _ _⟩

theorem increasing_change {calculator : TargetCalculator Rate} {now : ℕ} {rate : Rate}
    (change : (calculator.changed rates now .Increasing).2 = some rate) :
    rate ≤ calculator.targetSendRate := by
  unfold TargetCalculator.changed TargetCalculator.increasing at change
  dsimp only at change
  split at change
  · split at change
    · cases change
      exact min_le_left _ _
    · cases change
  · cases change
    exact rates.halved_le _

theorem increasing_changes (calculator : TargetCalculator Rate) (now : ℕ) :
    (calculator.changed rates now .Increasing).2 ≠ none ↔
      ∀ ackedRate ∈ calculator.ackedRate,
        calculator.targetSendRateUpdated +
            max MIN_RTT_FOR_DECREASE (min calculator.rtt MAX_RTT_FOR_DECREASE) ≤ now ∨
          ackedRate ≤ rates.timesHalf calculator.targetSendRate := by
  unfold TargetCalculator.changed TargetCalculator.increasing
  dsimp only
  cases calculator.ackedRate with
  | none => simp
  | some ackedRate =>
    dsimp only
    split
    · rename_i due
      simp only [ne_eq, reduceCtorEq, not_false_eq_true, true_iff]
      intro other same
      cases same
      exact due
    · rename_i early
      simp only [ne_eq, not_true_eq_false, false_iff]
      exact fun due => early (due ackedRate rfl)

/-- The last part of a step: the target is set to a clamped rate, or nothing is. -/
theorem settle_cases (calculator : TargetCalculator Rate) (now : ℕ) (direction : DelayDirection)
    (change : Option Rate) (reset : Bool) :
    ((change ≠ none ∨ reset = true) ∧
      (calculator.settle now direction change reset).2 =
        some (clampTargetSendRate calculator.config (change.getD calculator.targetSendRate)) ∧
      (calculator.settle now direction change reset).1.targetSendRate =
        clampTargetSendRate calculator.config (change.getD calculator.targetSendRate)) ∨
    (change = none ∧ reset = false ∧
      (calculator.settle now direction change reset).2 = none ∧
      Frame calculator (calculator.settle now direction change reset).1) := by
  unfold TargetCalculator.settle
  dsimp only
  split
  · rename_i sets
    exact Or.inl ⟨sets.imp_left Option.isSome_iff_ne_none.mp, rfl, rfl⟩
  · rename_i same
    rw [not_or, Bool.not_eq_true, Bool.not_eq_true, Option.isSome_eq_false_iff,
      Option.isNone_iff_eq_none] at same
    exact Or.inr ⟨same.1, same.2, rfl, rfl, rfl, rfl⟩

theorem settle_config (calculator : TargetCalculator Rate) (now : ℕ) (direction : DelayDirection)
    (change : Option Rate) (reset : Bool) :
    (calculator.settle now direction change reset).1.config = calculator.config := by
  unfold TargetCalculator.settle
  dsimp only
  split <;> rfl

theorem next_none {calculator : TargetCalculator Rate} {input : Input Rate}
    (no : input.delayDirections = none) :
    calculator.next rates input = (calculator.measured input, none) := by
  unfold TargetCalculator.next
  dsimp only
  rw [no]

theorem next_some {calculator : TargetCalculator Rate} {input : Input Rate} {now : ℕ}
    {direction : DelayDirection} (yes : input.delayDirections = some (now, direction)) :
    calculator.next rates input =
      (((calculator.measured input).taken rates input.request).1.changed rates now
          direction).1.settle now direction
        (((calculator.measured input).taken rates input.request).1.changed rates now direction).2
        ((calculator.measured input).taken rates input.request).2 := by
  unfold TargetCalculator.next
  dsimp only
  rw [yes]

theorem next_config (calculator : TargetCalculator Rate) (input : Input Rate) :
    (calculator.next rates input).1.config = calculator.config := by
  cases given : input.delayDirections with
  | none =>
    rw [next_none rates given]
    exact (measured_frame calculator input).config
  | some delay =>
    rw [@next_some _ _ rates calculator input delay.1 delay.2 given, settle_config,
      (changed_frame rates _ _ _).config, taken_config]
    exact (measured_frame calculator input).config

/-- The target is between the bounds of the configuration. -/
structure Bounded (config : Config Rate) (calculator : TargetCalculator Rate) : Prop where
  same : calculator.config = config
  low : config.minTargetSendRate ≤ calculator.targetSendRate
  high : calculator.targetSendRate ≤ config.maxTargetSendRate

section
variable {config : Config Rate} {calculator : TargetCalculator Rate} {input : Input Rate} {now : ℕ}
  {direction : DelayDirection}

theorem resets_eq (yes : input.delayDirections = some (now, direction)) :
    calculator.resets rates input =
      ((calculator.measured input).taken rates input.request).2 := by
  unfold TargetCalculator.resets
  rw [yes]
  rfl

theorem taken_kept (yes : input.delayDirections = some (now, direction))
    (kept : calculator.resets rates input = false) :
    Frame calculator ((calculator.measured input).taken rates input.request).1 :=
  (measured_frame calculator input).trans
    (taken_frame rates ((resets_eq rates yes).symm.trans kept))

/-- A step with a direction: the target is set to the clamped change, or nothing happens. -/
theorem next_cases (yes : input.delayDirections = some (now, direction)) :
    let requesting := (calculator.measured input).taken rates input.request
    let change := (requesting.1.changed rates now direction).2
    ((change ≠ none ∨ calculator.resets rates input = true) ∧ ∃ rate,
      rate = clampTargetSendRate calculator.config
        (change.getD requesting.1.targetSendRate) ∧
      (calculator.next rates input).2 = some rate ∧
      (calculator.next rates input).1.targetSendRate = rate) ∨
    (change = none ∧ calculator.resets rates input = false ∧
      (calculator.next rates input).2 = none ∧
      Frame calculator (calculator.next rates input).1) := by
  intro requesting change
  have frame := changed_frame rates requesting.1 now direction
  have config : (requesting.1.changed rates now direction).1.config = calculator.config :=
    frame.config.trans (taken_config rates _ _)
  rw [next_some rates yes, resets_eq rates yes]
  rcases settle_cases (requesting.1.changed rates now direction).1 now direction change
    requesting.2 with ⟨sets, told, target⟩ | ⟨none, kept, told, same⟩
  · refine Or.inl ⟨sets, _, ?_, told, target⟩
    rw [config, frame.target]
  · have before := taken_kept rates yes ((resets_eq rates yes).trans kept)
    exact Or.inr ⟨none, kept, told, (before.trans frame).trans same⟩

theorem change_iff (yes : input.delayDirections = some (now, direction))
    (kept : calculator.resets rates input = false) :
    ((((calculator.measured input).taken rates input.request).1.changed rates now
        direction).2 ≠ none ↔
      direction = .Steady ∨ direction = .Increasing ∧ calculator.due rates input now) := by
  cases direction with
  | Decreasing => simp [TargetCalculator.changed]
  | Steady =>
    obtain ⟨rate, change, _⟩ :=
      steady_change rates ((calculator.measured input).taken rates input.request).1 now
    simp [change]
  | Increasing =>
    have frame := taken_kept rates yes kept
    have measures := taken_measures rates (calculator.measured input) input.request
    rw [increasing_changes, frame.target, frame.updated, measures.1, measures.2]
    simp [TargetCalculator.due]

/-- A step with a direction tells a rate when it resets the target or changes it. -/
theorem told_iff (yes : input.delayDirections = some (now, direction)) :
    (calculator.next rates input).2 ≠ none ↔
      calculator.resets rates input = true ∨ direction = .Steady ∨
        direction = .Increasing ∧ calculator.due rates input now := by
  cases reset : calculator.resets rates input with
  | true =>
    rcases @next_cases _ _ rates calculator _ _ _ yes with
      ⟨_, rate, _, told, _⟩ | ⟨_, kept, _, _⟩
    · rw [told]
      exact iff_of_true (Option.some_ne_none rate) (Or.inl rfl)
    · rw [reset] at kept
      cases kept
  | false =>
    have change := change_iff rates yes reset
    rcases @next_cases _ _ rates calculator _ _ _ yes with
      ⟨sets, rate, _, told, _⟩ | ⟨none, _, told, _⟩
    · rcases sets with moved | other
      · rw [told]
        exact iff_of_true (Option.some_ne_none rate) (Or.inr (change.mp moved))
      · rw [reset] at other
        cases other
    · rw [told]
      refine iff_of_false (not_not.mpr rfl) ?_
      rintro (resets | changes)
      · cases resets
      · exact change.mpr changes none

/-- A step whose change is known, without a reset. -/
theorem next_kept (yes : input.delayDirections = some (now, direction))
    (kept : calculator.resets rates input = false) {change : Option Rate}
    (known : (((calculator.measured input).taken rates input.request).1.changed rates now
      direction).2 = change) :
    (change = none ∧ (calculator.next rates input).1.targetSendRate = calculator.targetSendRate) ∨
      ∃ rate, change = some rate ∧ (calculator.next rates input).1.targetSendRate =
        clampTargetSendRate calculator.config rate := by
  subst known
  rcases @next_cases _ _ rates calculator _ _ _ yes with
    ⟨sets, rate, clamped, _, target⟩ | ⟨none, _, _, same⟩
  · rcases sets with some | reset
    · obtain ⟨moved, change⟩ := Option.ne_none_iff_exists'.mp some
      refine Or.inr ⟨moved, change, ?_⟩
      rw [target, clamped, change, Option.getD_some]
    · rw [kept] at reset
      cases reset
  · exact Or.inl ⟨none, same.target⟩

theorem step_law (bounded : Bounded config calculator) (input : Input Rate) :
    StepLaw rates calculator input where
  decreasing := by
    intro now yes kept
    rcases next_kept rates yes kept rfl with ⟨_, same⟩ | ⟨rate, change, _⟩
    · exact same
    · cases change
  steady := by
    intro now yes kept
    obtain ⟨rate, change, more⟩ :=
      steady_change rates ((calculator.measured input).taken rates input.request).1 now
    rw [(taken_kept rates yes kept).target] at more
    rcases next_kept rates yes kept change with ⟨none, _⟩ | ⟨other, same, target⟩
    · cases none
    · cases same
      rw [target, bounded.same]
      exact le_clamp more bounded.high
  increasing := by
    intro now yes kept
    rcases next_kept rates yes kept rfl with ⟨_, same⟩ | ⟨rate, change, target⟩
    · exact le_of_eq same
    · have less := increasing_change rates change
      rw [(taken_kept rates yes kept).target] at less
      rw [target, bounded.same]
      exact clamp_le less bounded.low
  told := by
    intro rate told
    cases given : input.delayDirections with
    | none =>
      rw [next_none rates given] at told
      cases told
    | some delay =>
      rcases @next_cases _ _ rates calculator input delay.1 delay.2 given with
        ⟨_, own, _, same, target⟩ | ⟨_, _, none, _⟩
      · rw [same] at told
        cases told
        exact target.symm
      · rw [none] at told
        cases told
  kept := by
    intro told
    cases given : input.delayDirections with
    | none =>
      rw [next_none rates given]
      exact ⟨rfl, rfl⟩
    | some delay =>
      rcases @next_cases _ _ rates calculator input delay.1 delay.2 given with
        ⟨_, own, _, same, target⟩ | ⟨_, _, _, frame⟩
      · rw [same] at told
        cases told
      · exact ⟨frame.target, frame.updated⟩
  set := by
    cases given : input.delayDirections with
    | none =>
      rw [next_none rates given]
      simp
    | some delay =>
      rw [@told_iff _ _ rates calculator input delay.1 delay.2 given]
      constructor
      · exact fun sets => ⟨delay.1, delay.2, rfl, sets⟩
      · rintro ⟨now, direction, same, sets⟩
        cases same
        exact sets

/-- A step keeps the target between the bounds. -/
theorem bounded_step (order : config.minTargetSendRate ≤ config.maxTargetSendRate)
    (bounded : Bounded config calculator) (input : Input Rate) :
    Bounded config (calculator.next rates input).1 := by
  have same : (calculator.next rates input).1.config = config :=
    (next_config rates calculator input).trans bounded.same
  cases given : input.delayDirections with
  | none =>
    rw [next_none rates given] at same ⊢
    exact ⟨same, bounded.low, bounded.high⟩
  | some delay =>
    rcases @next_cases _ _ rates calculator input delay.1 delay.2 given with
      ⟨_, own, clamped, _, target⟩ | ⟨_, _, _, frame⟩
    · have bounds := clamp_bounds order
      rw [bounded.same] at clamped
      refine ⟨same, ?_, ?_⟩
      · rw [target, clamped]
        exact (bounds _).1
      · rw [target, clamped]
        exact (bounds _).2
    · refine ⟨same, ?_, ?_⟩
      · rw [frame.target]
        exact bounded.low
      · rw [frame.target]
        exact bounded.high

end

/-- In every run the target is between its bounds, and every step moves it in the direction that
    it should. -/
theorem target_bounded_and_directed (config : Config Rate)
    (low : config.minTargetSendRate ≤ config.initialTargetSendRate)
    (high : config.initialTargetSendRate ≤ config.maxTargetSendRate) (startTime : ℕ)
    (inputs : List (Input Rate)) :
    let calculator := final (TargetCalculator.next rates)
      (TargetCalculator.new rates config startTime) inputs
    (config.minTargetSendRate ≤ calculator.targetSendRate ∧
      calculator.targetSendRate ≤ config.maxTargetSendRate) ∧
    ∀ input, StepLaw rates calculator input := by
  intro calculator
  have bounded : Bounded config calculator :=
    final_keeps (Bounded config) (fun _ input held =>
      bounded_step rates (le_trans low high) held input) inputs ⟨rfl, low, high⟩
  exact ⟨⟨bounded.low, bounded.high⟩, fun input => step_law rates bounded input⟩

end

/-- Rates in whole bits per second; the increase of a part of a second is taken as linear. -/
def bitsPerSecond : RateArithmetic ℕ where
  fromKbps := fun kbps => kbps * 1000
  plus := fun one two => one + two
  saturatingSub := fun one two => one - two
  timesHalf := fun rate => rate / 2
  twice := fun rate => rate * 2
  halved := fun rate => rate / 2
  discounted := fun rate => rate * 85 / 100
  timesMultiplier := fun rate below duration =>
    rate * (if below then 16 else 8) * min duration 1000000000 / 100000000000
  additiveIncreasePer := fun duration => 9600 * 1000000000 / duration
  timesSecs := fun rate duration => rate * duration / 1000000000
  initialVariance := 400
  movingAverage := fun average sample => (sample * 5 + average * 95) / 100
  nextVariance := fun variance average sample =>
    max 400 (min 2500 ((variance * 95 + 5 * (average - sample + (sample - average)) ^ 2 /
      max average 1) / 100))
  relativeBound := fun variance average => 3 * (variance * average).sqrt
  halved_le := fun rate => Nat.div_le_self rate 2

/-- The default configuration, after a first step with a steady delay. -/
theorem target_bounded_default :
    let config : Config ℕ := ⟨5000000, 100000, 30000000⟩
    let calculator := final (TargetCalculator.next bitsPerSecond)
      (TargetCalculator.new bitsPerSecond config 0) [⟨none, some (0, .Steady), none, none⟩]
    (100000 ≤ calculator.targetSendRate ∧ calculator.targetSendRate ≤ 30000000) ∧
      ∀ input, StepLaw bitsPerSecond calculator input :=
  target_bounded_and_directed bitsPerSecond ⟨5000000, 100000, 30000000⟩ (by decide) (by decide) 0
    [⟨none, some (0, .Steady), none, none⟩]

end TargetRate
