import Mathlib.Algebra.Order.BigOperators.Group.List
import Mathlib.Data.List.Induction
import Nebula.Lib.Rounding
import Nebula.Lib.Transducer

/- The acked rate of the congestion controller. Acks are gathered into windows by the times at
   which they arrived, and the rates of the windows are blended into an estimate. Times and
   durations are nanoseconds and sizes are bits. -/
namespace AckedRates
open Transducer

structure Ack where
  size : ℕ
  departure : ℕ
  arrival : ℕ
  feedbackArrival : ℕ
  deriving DecidableEq

def INITIAL_ACK_GROUP_DURATION : ℕ := 500000000
def SUBSEQUENT_ACK_GROUP_DURATION : ℕ := 150000000

/-- `Duration::as_micros` as an unsigned 64-bit number. -/
def asMicros (duration : ℕ) : ℕ := duration / 1000 % 2 ^ 64

/-- What `accumulate_acked_sizes` keeps once it has seen an ack. -/
structure Window where
  ack1 : Ack
  accumulatedSize : ℕ
  accumulatedDuration : ℕ
  targetAckGroupDuration : ℕ
  deriving DecidableEq

def Window.start (ack : Ack) : Window := ⟨ack, ack.size, 0, INITIAL_ACK_GROUP_DURATION⟩

def Window.add (window : Window) (ack2 : Ack) : Window × Option (ℕ × ℕ) :=
  if ack2.arrival < window.ack1.arrival then
    (⟨ack2, 0 + ack2.size, 0, window.targetAckGroupDuration⟩, none)
  else
    let arrivalDelta := ack2.arrival - window.ack1.arrival
    let duration := window.accumulatedDuration + arrivalDelta
    if window.targetAckGroupDuration < arrivalDelta then
      (⟨ack2, 0 + ack2.size,
        asMicros duration % asMicros window.targetAckGroupDuration * 1000,
        window.targetAckGroupDuration⟩, none)
    else if window.targetAckGroupDuration ≤ duration then
      -- What is left over of the old window goes to the next one, which is the smaller one.
      (⟨ack2, 0 + ack2.size, duration - window.targetAckGroupDuration,
        SUBSEQUENT_ACK_GROUP_DURATION⟩,
        some (window.accumulatedSize, window.targetAckGroupDuration))
    else
      (⟨ack2, window.accumulatedSize + ack2.size, duration, window.targetAckGroupDuration⟩, none)

def accumulateAckedSizes : Step (Option Window) Ack (ℕ × ℕ)
  | none, ack => (some (Window.start ack), none)
  | some window, ack =>
    let (after, yielded) := window.add ack
    (some after, yielded)

/-- Whether an ack ends what has been gathered, by a yield or by a reset. -/
def Window.clears (window : Window) (ack2 : Ack) : Bool :=
  ack2.arrival < window.ack1.arrival ||
    (window.targetAckGroupDuration < ack2.arrival - window.ack1.arrival ||
      window.targetAckGroupDuration ≤
        window.accumulatedDuration + (ack2.arrival - window.ack1.arrival))

def gather (state : Option Window) (gathered : List Ack) (ack : Ack) : List Ack :=
  match state with
  | none => [ack]
  | some window => if window.clears ack then [ack] else gathered ++ [ack]

def gatheredFrom (state : Option Window) (gathered : List Ack) : List Ack → List Ack
  | [] => gathered
  | ack :: rest => gatheredFrom (accumulateAckedSizes state ack).1 (gather state gathered ack) rest

/-- The acks that have been processed since the last yield or reset. -/
def sinceCleared (acks : List Ack) : List Ack := gatheredFrom none [] acks

inductive Stop where
  | dividesByZero
  deriving DecidableEq

section
variable (fl : Rounding)

def divide (x y : ℚ) : Except Stop ℚ :=
  if y = 0 then .error .dividesByZero else .ok (fl.round (x / y))

/-- `Duration::as_secs_f64`. -/
def asSecs (duration : ℕ) : ℚ :=
  fl.round (fl.round (duration / 1000000000 : ℕ) +
    fl.round (fl.round (duration % 1000000000 : ℕ) / 1000000000))

/-- A size by a duration is a rate in bits per second. -/
def rateOf (size duration : ℕ) : Except Stop ℕ := do
  let rate ← divide fl (fl.round size) (asSecs fl duration)
  pure ⌊rate⌋₊

structure Estimator where
  estimate : ℕ
  variance : ℚ
  deriving DecidableEq

def Estimator.start (size duration : ℕ) : Except Stop Estimator := do
  let estimate ← rateOf fl size duration
  pure ⟨estimate, 50⟩

def absDiff (sample estimate : ℕ) : ℕ :=
  if estimate < sample then sample - estimate else estimate - sample

/-- How far a sample is off, squared. -/
def sampleVarianceOf (sample estimate : ℕ) : Except Stop ℚ := do
  let ratio ← divide fl (fl.round (absDiff sample estimate)) (fl.round estimate)
  let scaled := fl.round (ratio * 10)
  pure (fl.round (scaled * scaled))

/-- The estimate and the sample, each weighed by the other's variance. -/
def mix (estimate sample : ℕ) (sampleVariance predVariance : ℚ) : Except Stop Estimator := do
  let weighed := ⌊fl.round (fl.round estimate * sampleVariance)⌋₊ +
    ⌊fl.round (fl.round sample * predVariance)⌋₊
  let blended ← divide fl (fl.round weighed) (fl.round (sampleVariance + predVariance))
  let variance ← divide fl (fl.round (sampleVariance * predVariance))
    (fl.round (sampleVariance + predVariance))
  pure ⟨⌊blended⌋₊, variance⟩

def Estimator.blend (estimator : Estimator) (size duration : ℕ) : Except Stop Estimator := do
  let sample ← rateOf fl size duration
  let sampleVariance ← sampleVarianceOf fl sample estimator.estimate
  mix fl estimator.estimate sample sampleVariance (fl.round (estimator.variance + 5))

def blendAll (estimator : Estimator) : List (ℕ × ℕ) → Except Stop (List ℕ)
  | [] => .ok []
  | group :: rest => do
    let after ← estimator.blend fl group.1 group.2
    let estimates ← blendAll after rest
    pure (after.estimate :: estimates)

def estimateAckedRatesFromGroups : List (ℕ × ℕ) → Except Stop (List ℕ)
  | [] => .ok []
  | group :: rest => do
    let first ← Estimator.start fl group.1 group.2
    let estimates ← blendAll fl first rest
    pure (first.estimate :: estimates)

def estimateAckedRates (acks : List Ack) : Except Stop (List ℕ) :=
  estimateAckedRatesFromGroups fl (outputs accumulateAckedSizes none acks)

end

/-- The window has not run out, each size that is yielded is what came in within its window,
    and no division is by zero. -/
structure WindowsHeld (acks : List Ack) : Prop where
  within : ∀ before after window, acks = before ++ after →
    final accumulateAckedSizes none before = some window →
    window.accumulatedDuration < window.targetAckGroupDuration
  yields : ∀ before ack after size span, acks = before ++ ack :: after →
    (accumulateAckedSizes (final accumulateAckedSizes none before) ack).2 = some (size, span) →
    0 < size ∧ size = ((sinceCleared before).map Ack.size).sum ∧
      ∀ first ∈ sinceCleared before, ∀ last ∈ sinceCleared before,
        last.arrival - first.arrival ≤ span
  divides : ∀ fl : Rounding, ∃ estimates, estimateAckedRates fl acks = .ok estimates

/-- The ack that ends the first window leaves less over than the next window takes. -/
def Fits (acks : List Ack) : Prop :=
  ∀ before ack after window, acks = before ++ ack :: after →
    final accumulateAckedSizes none before = some window →
    window.targetAckGroupDuration = INITIAL_ACK_GROUP_DURATION → (window.add ack).2 ≠ none →
    window.accumulatedDuration + (ack.arrival - window.ack1.arrival) <
      INITIAL_ACK_GROUP_DURATION + SUBSEQUENT_ACK_GROUP_DURATION

/-- What becomes of a window with an ack that comes late, after a gap, as the one that fills the
    window, or as one more of it. -/
inductive Added (window : Window) (ack2 : Ack) : Window × Option (ℕ × ℕ) → Prop where
  | late : ack2.arrival < window.ack1.arrival →
      Added window ack2 (⟨ack2, ack2.size, 0, window.targetAckGroupDuration⟩, none)
  | gap : window.ack1.arrival ≤ ack2.arrival →
      window.targetAckGroupDuration < ack2.arrival - window.ack1.arrival →
      Added window ack2 (⟨ack2, ack2.size,
        asMicros (window.accumulatedDuration + (ack2.arrival - window.ack1.arrival)) %
          asMicros window.targetAckGroupDuration * 1000, window.targetAckGroupDuration⟩, none)
  | full : window.ack1.arrival ≤ ack2.arrival →
      ack2.arrival - window.ack1.arrival ≤ window.targetAckGroupDuration →
      window.targetAckGroupDuration ≤
        window.accumulatedDuration + (ack2.arrival - window.ack1.arrival) →
      Added window ack2 (⟨ack2, ack2.size,
        window.accumulatedDuration + (ack2.arrival - window.ack1.arrival) -
          window.targetAckGroupDuration, SUBSEQUENT_ACK_GROUP_DURATION⟩,
        some (window.accumulatedSize, window.targetAckGroupDuration))
  | more : window.ack1.arrival ≤ ack2.arrival →
      window.accumulatedDuration + (ack2.arrival - window.ack1.arrival) <
        window.targetAckGroupDuration →
      Added window ack2 (⟨ack2, window.accumulatedSize + ack2.size,
        window.accumulatedDuration + (ack2.arrival - window.ack1.arrival),
        window.targetAckGroupDuration⟩, none)

theorem added (window : Window) (ack2 : Ack) : Added window ack2 (window.add ack2) := by
  unfold Window.add
  by_cases late : ack2.arrival < window.ack1.arrival
  · rw [if_pos late, Nat.zero_add]
    exact Added.late late
  · rw [if_neg late, Nat.zero_add]
    have inOrder := Nat.le_of_not_lt late
    by_cases gap : window.targetAckGroupDuration < ack2.arrival - window.ack1.arrival
    · rw [if_pos gap]
      exact Added.gap inOrder gap
    · rw [if_neg gap]
      by_cases full : window.targetAckGroupDuration ≤
          window.accumulatedDuration + (ack2.arrival - window.ack1.arrival)
      · rw [if_pos full]
        exact Added.full inOrder (Nat.le_of_not_lt gap) full
      · rw [if_neg full]
        exact Added.more inOrder (Nat.lt_of_not_le full)

theorem clears_iff (window : Window) (ack2 : Ack) : window.clears ack2 = true ↔
    ack2.arrival < window.ack1.arrival ∨
      window.targetAckGroupDuration < ack2.arrival - window.ack1.arrival ∨
      window.targetAckGroupDuration ≤
        window.accumulatedDuration + (ack2.arrival - window.ack1.arrival) := by
  simp [Window.clears]

def Window.Known (window : Window) : Prop :=
  window.targetAckGroupDuration = INITIAL_ACK_GROUP_DURATION ∨
    window.targetAckGroupDuration = SUBSEQUENT_ACK_GROUP_DURATION

theorem Window.Known.pos {window : Window} (known : window.Known) :
    0 < window.targetAckGroupDuration := by
  rcases known with first | later
  · rw [first]
    exact Nat.zero_lt_succ _
  · rw [later]
    exact Nat.zero_lt_succ _

/-- The remainder that a gap leaves is below the window. -/
theorem Window.Known.remainder {window : Window} (known : window.Known) (duration : ℕ) :
    asMicros duration % asMicros window.targetAckGroupDuration * 1000 <
      window.targetAckGroupDuration := by
  rcases known with first | later
  · have below := Nat.mod_lt (asMicros duration)
      (show 0 < asMicros INITIAL_ACK_GROUP_DURATION by decide)
    have whole : asMicros INITIAL_ACK_GROUP_DURATION * 1000 = INITIAL_ACK_GROUP_DURATION := rfl
    rw [first]
    omega
  · have below := Nat.mod_lt (asMicros duration)
      (show 0 < asMicros SUBSEQUENT_ACK_GROUP_DURATION by decide)
    have whole : asMicros SUBSEQUENT_ACK_GROUP_DURATION * 1000 =
      SUBSEQUENT_ACK_GROUP_DURATION := rfl
    rw [later]
    omega

/-- What has been gathered stands in the window. -/
structure Gathered (window : Window) (acks : List Ack) : Prop where
  known : window.Known
  size : window.accumulatedSize = (acks.map Ack.size).sum
  last : window.ack1 ∈ acks
  positive : ∀ ack ∈ acks, 0 < ack.size
  span : ∀ ack ∈ acks, ack.arrival ≤ window.ack1.arrival ∧
    window.ack1.arrival - ack.arrival ≤ window.accumulatedDuration
  spare : window.accumulatedDuration < window.targetAckGroupDuration ∨ acks = [window.ack1]

def Related : Option Window → List Ack → Prop
  | none, acks => acks = []
  | some window, acks => Gathered window acks

/-- A window that begins anew with an ack. -/
theorem gathered_single {ack : Ack} (positive : 0 < ack.size) (duration : ℕ) {target : ℕ}
    (known : target = INITIAL_ACK_GROUP_DURATION ∨ target = SUBSEQUENT_ACK_GROUP_DURATION) :
    Gathered ⟨ack, ack.size, duration, target⟩ [ack] where
  known := known
  size := by
    rw [List.map_singleton, List.sum_singleton]
  last := List.mem_singleton_self ack
  positive := by
    intro other member
    rwa [List.mem_singleton.mp member]
  span := by
    intro other member
    rw [List.mem_singleton.mp member]
    exact ⟨Nat.le_refl _, by simp⟩
  spare := Or.inr rfl

theorem gathered_add {window : Window} {acks : List Ack} (gathered : Gathered window acks)
    {ack : Ack} (positive : 0 < ack.size) :
    Gathered (window.add ack).1 (gather (some window) acks ack) := by
  have spec := added window ack
  have kinds := clears_iff window ack
  unfold gather
  dsimp only
  generalize window.add ack = result at spec
  cases spec with
  | late late =>
    rw [if_pos (kinds.mpr (Or.inl late))]
    exact gathered_single positive 0 gathered.known
  | gap inOrder gap =>
    rw [if_pos (kinds.mpr (Or.inr (Or.inl gap)))]
    exact gathered_single positive _ gathered.known
  | full inOrder noGap full =>
    rw [if_pos (kinds.mpr (Or.inr (Or.inr full)))]
    exact gathered_single positive _ (Or.inr rfl)
  | more inOrder more =>
    have goesOn : ¬ window.clears ack = true := by
      rw [kinds]
      omega
    rw [if_neg goesOn]
    refine ⟨gathered.known, ?_, ?_, ?_, ?_, Or.inl more⟩
    · rw [List.map_append, List.sum_append, ← gathered.size, List.map_singleton,
        List.sum_singleton]
    · exact List.mem_append_right acks (List.mem_singleton_self ack)
    · intro other member
      rcases List.mem_append.mp member with old | new
      · exact gathered.positive other old
      · rwa [List.mem_singleton.mp new]
    · intro other member
      dsimp only
      rcases List.mem_append.mp member with old | new
      · have before := gathered.span other old
        omega
      · rw [List.mem_singleton.mp new]
        omega

theorem related_step {state : Option Window} {acks : List Ack} (related : Related state acks)
    {ack : Ack} (positive : 0 < ack.size) :
    Related (accumulateAckedSizes state ack).1 (gather state acks ack) := by
  cases state with
  | none => exact gathered_single positive 0 (Or.inl rfl)
  | some window => exact gathered_add related positive

theorem related_final (acks : List Ack) : ∀ {state : Option Window} {gathered : List Ack},
    (∀ ack ∈ acks, 0 < ack.size) → Related state gathered →
      Related (final accumulateAckedSizes state acks) (gatheredFrom state gathered acks) := by
  induction acks with
  | nil => exact fun _ related => related
  | cons ack rest ih =>
    intro state gathered positive related
    exact ih (fun other member => positive other (List.mem_cons_of_mem _ member))
      (related_step related (positive ack List.mem_cons_self))

/-- What is yielded is what has been gathered, within the span of the window. -/
theorem gathered_yields {window : Window} {acks : List Ack} (gathered : Gathered window acks)
    {ack : Ack} {size span : ℕ} (yields : (window.add ack).2 = some (size, span)) :
    (0 < size ∧ size = (acks.map Ack.size).sum ∧
      ∀ first ∈ acks, ∀ last ∈ acks, last.arrival - first.arrival ≤ span) ∧
    (span = INITIAL_ACK_GROUP_DURATION ∨ span = SUBSEQUENT_ACK_GROUP_DURATION) := by
  have spec := added window ack
  generalize window.add ack = result at spec yields
  cases spec with
  | late late => cases yields
  | gap inOrder gap => cases yields
  | more inOrder more => cases yields
  | full inOrder noGap full =>
    cases yields
    refine ⟨⟨?_, gathered.size, ?_⟩, gathered.known⟩
    · rw [gathered.size]
      exact Nat.lt_of_lt_of_le (gathered.positive _ gathered.last)
        (List.single_le_sum (fun _ _ => Nat.zero_le _) _ (List.mem_map_of_mem gathered.last))
    · intro first firstIn last lastIn
      rcases gathered.spare with spare | only
      · have before := gathered.span first firstIn
        have after := gathered.span last lastIn
        omega
      · rw [only] at firstIn lastIn
        rw [List.mem_singleton.mp firstIn, List.mem_singleton.mp lastIn, Nat.sub_self]
        exact Nat.zero_le _

/-- A window whose carry fits is shorter than its target after each step. -/
theorem add_within {window : Window} (known : window.Known)
    (within : window.accumulatedDuration < window.targetAckGroupDuration) {ack : Ack}
    (fits : window.targetAckGroupDuration = INITIAL_ACK_GROUP_DURATION →
      (window.add ack).2 ≠ none →
      window.accumulatedDuration + (ack.arrival - window.ack1.arrival) <
        INITIAL_ACK_GROUP_DURATION + SUBSEQUENT_ACK_GROUP_DURATION) :
    (window.add ack).1.accumulatedDuration < (window.add ack).1.targetAckGroupDuration := by
  have spec := added window ack
  generalize window.add ack = result at spec fits
  cases spec with
  | late late => exact known.pos
  | gap inOrder gap => exact known.remainder _
  | more inOrder more => exact more
  | full inOrder noGap full =>
    dsimp only
    rcases known with first | later
    · have below := fits first (Option.some_ne_none _)
      rw [first] at full ⊢
      omega
    · rw [later] at noGap full within ⊢
      omega

theorem known_final {acks : List Ack} {window : Window}
    (reached : final accumulateAckedSizes none acks = some window)
    (positive : ∀ ack ∈ acks, 0 < ack.size) : window.Known := by
  have related := related_final acks positive (show Related none [] from rfl)
  rw [reached] at related
  exact related.known

theorem final_snoc (acks : List Ack) (ack : Ack) :
    final accumulateAckedSizes none (acks ++ [ack]) =
      (accumulateAckedSizes (final accumulateAckedSizes none acks) ack).1 := by
  rw [final_append]
  rfl

theorem within_of_fits {acks : List Ack} (positive : ∀ ack ∈ acks, 0 < ack.size)
    (fits : Fits acks) (before : List Ack) : ∀ after window, acks = before ++ after →
      final accumulateAckedSizes none before = some window →
      window.accumulatedDuration < window.targetAckGroupDuration := by
  induction before using List.reverseRecOn with
  | nil =>
    intro after window _ reached
    cases reached
  | append_singleton earlier ack ih =>
    intro after window same reached
    rw [List.append_assoc, List.singleton_append] at same
    rw [final_snoc] at reached
    cases held : final accumulateAckedSizes none earlier with
    | none =>
      rw [held] at reached
      cases reached
      exact Nat.zero_lt_succ _
    | some old =>
      rw [held] at reached
      cases reached
      have known := known_final held (fun other member =>
        positive other (same ▸ List.mem_append_left _ member))
      exact add_within known (ih _ old same held) (fits earlier ack after old same held)

/-- A first window that leaves too much over for the second is one that runs out at once. -/
theorem fits_of_within {acks : List Ack}
    (within : ∀ before after window, acks = before ++ after →
      final accumulateAckedSizes none before = some window →
      window.accumulatedDuration < window.targetAckGroupDuration) : Fits acks := by
  intro before ack after window same reached first yields
  have next := within (before ++ [ack]) after (window.add ack).1 (by simp [same])
    (by rw [final_snoc, reached]; rfl)
  have spec := added window ack
  generalize window.add ack = result at spec yields next
  cases spec with
  | late late => exact absurd rfl yields
  | gap inOrder gap => exact absurd rfl yields
  | more inOrder more => exact absurd rfl yields
  | full inOrder noGap full =>
    dsimp only at next
    rw [first] at next full
    omega

/-- The two windows are between an eighth and half a second. -/
theorem asSecs_bounds (fl : Rounding) {duration : ℕ}
    (known : duration = INITIAL_ACK_GROUP_DURATION ∨ duration = SUBSEQUENT_ACK_GROUP_DURATION) :
    1 / 8 ≤ asSecs fl duration ∧ asSecs fl duration ≤ 1 / 2 := by
  have small : duration / 1000000000 = 0 ∧ duration % 1000000000 = duration ∧
      duration ≤ 2 ^ 53 ∧ (125000000 : ℚ) ≤ duration ∧ (duration : ℚ) ≤ 500000000 := by
    rcases known with rfl | rfl
    · norm_num [INITIAL_ACK_GROUP_DURATION]
    · norm_num [SUBSEQUENT_ACK_GROUP_DURATION]
  obtain ⟨seconds, nanos, exact53, low, high⟩ := small
  have value : asSecs fl duration = fl.round (duration / 1000000000) := by
    unfold asSecs
    rw [seconds, nanos, Nat.cast_zero, fl.round_zero, zero_add, fl.whole duration exact53,
      fl.round_round]
  rw [value]
  constructor
  · rw [← fl.round_eighth]
    apply fl.mono
    linarith
  · rw [← fl.round_half]
    apply fl.mono
    linarith

theorem divide_eq (fl : Rounding) {x y : ℚ} (nonzero : y ≠ 0) :
    divide fl x y = .ok (fl.round (x / y)) := if_neg nonzero

theorem rateOf_pos (fl : Rounding) {size duration : ℕ} (positive : 0 < size)
    (known : duration = INITIAL_ACK_GROUP_DURATION ∨ duration = SUBSEQUENT_ACK_GROUP_DURATION) :
    ∃ rate, rateOf fl size duration = .ok rate ∧ 2 ≤ rate := by
  obtain ⟨low, high⟩ := asSecs_bounds fl known
  have nonzero : asSecs fl duration ≠ 0 := by linarith
  refine ⟨⌊fl.round (fl.round size / asSecs fl duration)⌋₊, ?_, ?_⟩
  · unfold rateOf
    rw [divide_eq fl nonzero]
    rfl
  · have one : 1 ≤ fl.round size := fl.one_le_round (by exact_mod_cast positive)
    have two : (2 : ℚ) ≤ fl.round size / asSecs fl duration := by
      rw [le_div_iff₀ (by linarith)]
      linarith
    apply Nat.le_floor
    rw [← fl.whole 2 (by norm_num)]
    exact fl.mono _ _ (by exact_mod_cast two)

theorem sampleVarianceOf_ok (fl : Rounding) (sample : ℕ) {estimate : ℕ} (some : 1 ≤ estimate) :
    ∃ variance, sampleVarianceOf fl sample estimate = .ok (fl.round variance) ∧
      0 ≤ variance := by
  have one : 1 ≤ fl.round estimate := fl.one_le_round (by exact_mod_cast some)
  refine ⟨_, ?_, mul_self_nonneg (fl.round
    (fl.round (fl.round (absDiff sample estimate) / fl.round estimate) * 10))⟩
  unfold sampleVarianceOf
  rw [divide_eq fl (by linarith)]
  rfl

/-- A mixture of a positive estimate and a sample of two or more is positive: the sum of the two
    is at least that of their weights, and the rounding keeps it so. -/
theorem mix_ok (fl : Rounding) {estimate sample : ℕ} (some : 1 ≤ estimate) (two : 2 ≤ sample)
    {sampleVariance predVariance : ℚ} (nonneg : 0 ≤ sampleVariance) (five : 5 ≤ predVariance) :
    ∃ after, mix fl estimate sample (fl.round sampleVariance) (fl.round predVariance) = .ok after ∧
      1 ≤ after.estimate ∧ 0 ≤ after.variance := by
  have own : 0 ≤ fl.round sampleVariance := fl.round_nonneg nonneg
  have other : 5 ≤ fl.round predVariance := by
    rw [← show fl.round (5 : ℕ) = 5 from fl.whole 5 (by norm_num)]
    exact fl.mono _ _ (by exact_mod_cast five)
  have total : 5 ≤ fl.round (fl.round sampleVariance + fl.round predVariance) := by
    rw [← show fl.round (5 : ℕ) = 5 from fl.whole 5 (by norm_num)]
    exact fl.mono _ _ (by push_cast; linarith)
  have nonzero : fl.round (fl.round sampleVariance + fl.round predVariance) ≠ 0 := by linarith
  have one : 1 ≤ fl.round estimate := fl.one_le_round (by exact_mod_cast some)
  have twice : 2 ≤ fl.round sample := by
    rw [← show fl.round (2 : ℕ) = 2 from fl.whole 2 (by norm_num)]
    exact fl.mono _ _ (by exact_mod_cast two)
  have first : fl.round sampleVariance <
      ⌊fl.round (fl.round estimate * fl.round sampleVariance)⌋₊ + 1 := by
    refine lt_of_le_of_lt ?_ (Nat.lt_floor_add_one _)
    rw [← fl.round_round sampleVariance]
    apply fl.mono
    rw [fl.round_round]
    exact le_mul_of_one_le_left own one
  have second : 2 * fl.round predVariance <
      ⌊fl.round (fl.round sample * fl.round predVariance)⌋₊ + 1 := by
    refine lt_of_le_of_lt ?_ (Nat.lt_floor_add_one _)
    rw [← fl.round_double predVariance]
    exact fl.mono _ _ (mul_le_mul_of_nonneg_right twice (by linarith))
  have mixed : mix fl estimate sample (fl.round sampleVariance) (fl.round predVariance) =
      .ok ⟨⌊fl.round (fl.round
          (⌊fl.round (fl.round estimate * fl.round sampleVariance)⌋₊ +
            ⌊fl.round (fl.round sample * fl.round predVariance)⌋₊ : ℕ) /
          fl.round (fl.round sampleVariance + fl.round predVariance))⌋₊,
        fl.round (fl.round (fl.round sampleVariance * fl.round predVariance) /
          fl.round (fl.round sampleVariance + fl.round predVariance))⟩ := by
    unfold mix
    dsimp only
    rw [divide_eq fl nonzero, divide_eq fl nonzero]
    rfl
  refine ⟨_, mixed, ?_, ?_⟩
  · apply Nat.le_floor
    rw [Nat.cast_one]
    apply fl.one_le_round
    rw [le_div_iff₀ (by linarith), one_mul]
    apply fl.mono
    push_cast
    linarith
  · apply fl.round_nonneg
    exact div_nonneg (fl.round_nonneg (mul_nonneg own (by linarith))) (by linarith)

/-- A group that the estimator is given: something came in, in one of the two windows. -/
def Sound (group : ℕ × ℕ) : Prop :=
  0 < group.1 ∧ (group.2 = INITIAL_ACK_GROUP_DURATION ∨ group.2 = SUBSEQUENT_ACK_GROUP_DURATION)

theorem blend_ok (fl : Rounding) {estimator : Estimator} (some : 1 ≤ estimator.estimate)
    (nonneg : 0 ≤ estimator.variance) {group : ℕ × ℕ} (sound : Sound group) :
    ∃ after, estimator.blend fl group.1 group.2 = .ok after ∧
      1 ≤ after.estimate ∧ 0 ≤ after.variance := by
  obtain ⟨sample, rate, two⟩ := rateOf_pos fl sound.1 sound.2
  obtain ⟨variance, off, square⟩ := sampleVarianceOf_ok fl sample some
  obtain ⟨after, mixed, positive⟩ := mix_ok fl some two square
    (show 5 ≤ estimator.variance + 5 by linarith)
  refine ⟨after, ?_, positive⟩
  unfold Estimator.blend
  rw [rate]
  show (sampleVarianceOf fl sample estimator.estimate >>= fun sampleVariance =>
    mix fl estimator.estimate sample sampleVariance (fl.round (estimator.variance + 5))) = _
  rw [off]
  exact mixed

theorem blendAll_ok (fl : Rounding) (groups : List (ℕ × ℕ)) : ∀ {estimator : Estimator},
    (∀ group ∈ groups, Sound group) → 1 ≤ estimator.estimate → 0 ≤ estimator.variance →
      ∃ estimates, blendAll fl estimator groups = .ok estimates := by
  induction groups with
  | nil => exact fun _ _ _ => ⟨[], rfl⟩
  | cons group rest ih =>
    intro estimator sound some nonneg
    obtain ⟨after, blended, positive, variance⟩ :=
      blend_ok fl some nonneg (sound group List.mem_cons_self)
    obtain ⟨estimates, onward⟩ :=
      ih (fun other member => sound other (List.mem_cons_of_mem _ member)) positive variance
    refine ⟨after.estimate :: estimates, ?_⟩
    unfold blendAll
    rw [blended]
    show (blendAll fl after rest >>= fun estimates => pure (after.estimate :: estimates)) = _
    rw [onward]
    rfl

theorem estimateAckedRatesFromGroups_ok (fl : Rounding) {groups : List (ℕ × ℕ)}
    (sound : ∀ group ∈ groups, Sound group) :
    ∃ estimates, estimateAckedRatesFromGroups fl groups = .ok estimates := by
  cases groups with
  | nil => exact ⟨[], rfl⟩
  | cons group rest =>
    have begins := sound group List.mem_cons_self
    obtain ⟨rate, first, two⟩ := rateOf_pos fl begins.1 begins.2
    obtain ⟨estimates, onward⟩ := @blendAll_ok fl rest ⟨rate, 50⟩
      (fun other member => sound other (List.mem_cons_of_mem _ member))
      (show 1 ≤ rate by omega) (show (0 : ℚ) ≤ 50 by norm_num)
    refine ⟨rate :: estimates, ?_⟩
    unfold estimateAckedRatesFromGroups Estimator.start
    dsimp only
    rw [first]
    show (blendAll fl ⟨rate, 50⟩ rest >>= fun estimates => pure (rate :: estimates)) = _
    rw [onward]
    rfl

/-- What one step yields, whatever it comes after. -/
theorem step_yields {acks : List Ack} (positive : ∀ ack ∈ acks, 0 < ack.size)
    {before after : List Ack} {ack : Ack} {size span : ℕ} (same : acks = before ++ ack :: after)
    (yields : (accumulateAckedSizes (final accumulateAckedSizes none before) ack).2 =
      some (size, span)) :
    (0 < size ∧ size = ((sinceCleared before).map Ack.size).sum ∧
      ∀ first ∈ sinceCleared before, ∀ last ∈ sinceCleared before,
        last.arrival - first.arrival ≤ span) ∧
    (span = INITIAL_ACK_GROUP_DURATION ∨ span = SUBSEQUENT_ACK_GROUP_DURATION) := by
  have related := related_final before
    (fun other member => positive other (same ▸ List.mem_append_left _ member))
    (show Related none [] from rfl)
  cases held : final accumulateAckedSizes none before with
  | none =>
    rw [held] at yields
    cases yields
  | some window =>
    rw [held] at yields related
    exact gathered_yields related yields

theorem outputs_sound {acks : List Ack} (positive : ∀ ack ∈ acks, 0 < ack.size) :
    ∀ group ∈ outputs accumulateAckedSizes none acks, Sound group := by
  intro group member
  obtain ⟨before, ack, after, same, yields⟩ := mem_outputs acks member
  have yielded := step_yields positive same yields
  exact ⟨yielded.1.1, yielded.2⟩

/-- The windows hold in exactly the runs in which what is left over of the first window fits
    into the second. -/
theorem windowsHeld_iff (acks : List Ack) (positive : ∀ ack ∈ acks, 0 < ack.size) :
    WindowsHeld acks ↔ Fits acks := by
  constructor
  · exact fun held => fits_of_within held.within
  · intro fits
    refine ⟨within_of_fits positive fits, ?_, ?_⟩
    · intro before ack after size span same yields
      exact (step_yields positive same yields).1
    · exact fun fl => estimateAckedRatesFromGroups_ok fl (outputs_sound positive)

/-- Three acks of which the last fills the first window with little left over. -/
theorem windowsHeld_iff_steady :
    (∀ ack ∈ [⟨800, 0, 0, 0⟩, ⟨800, 0, 300000000, 0⟩, ⟨800, 0, 600000000, 0⟩], 0 < Ack.size ack) ∧
      (WindowsHeld [⟨800, 0, 0, 0⟩, ⟨800, 0, 300000000, 0⟩, ⟨800, 0, 600000000, 0⟩] ↔
        Fits [⟨800, 0, 0, 0⟩, ⟨800, 0, 300000000, 0⟩, ⟨800, 0, 600000000, 0⟩]) :=
  ⟨by decide, windowsHeld_iff _ (by decide)⟩

/-- Acks 450 ms apart leave 400 ms over of the first window, more than the next one takes. -/
theorem surplus_outruns_window : ¬ ∀ acks : List Ack,
    (∀ ack ∈ acks, 0 < ack.size) → WindowsHeld acks := by
  intro always
  have held := always [⟨800, 0, 0, 0⟩, ⟨800, 0, 450000000, 0⟩, ⟨800, 0, 900000000, 0⟩] (by decide)
  have within := held.within _ [] _ (List.append_nil _).symm rfl
  exact absurd within (by decide)

end AckedRates
