import Mathlib.Algebra.Order.Group.Nat
import Mathlib.Algebra.BigOperators.Group.List.Basic
import Mathlib.Data.List.Basic
import Mathlib.Data.List.Induction
import Mathlib.Tactic.Common
import Nebula.Media.VideoReceiver

/- The rate of a video layer over the last five seconds, with its sizes in the words of 64 bits in
   which they are added up. As long as the sums fit, this is the tracker of the video receiver.
   Times are nanoseconds; the division of floats in the rate is a parameter. -/
namespace DataRate
open VideoReceiver (MAX_DURATION MIN_DURATION)

/-- When a sample came, and how many bits it had. -/
abbrev Sample := Nat × UInt64

structure DataRateTracker where
  history : List Sample := []
  accumulatedSize : UInt64 := 0
  rate : Option UInt64 := none
  deriving DecidableEq, Repr

/-- The newest sample stands first. -/
def push (tracker : DataRateTracker) (size : UInt64) (time : Nat) : DataRateTracker :=
  { tracker with
    history := (time, size) :: tracker.history
    accumulatedSize := tracker.accumulatedSize + size }

/-- Samples counted from the oldest on, as long as they came before the deadline. -/
def countToRemove (history : List Sample) (deadline : Nat) : Nat :=
  (history.reverse.takeWhile fun sample => decide (sample.1 < deadline)).length

def removed (history : List Sample) (now : Nat) : List Sample :=
  history.drop (history.length - countToRemove history (now - MAX_DURATION))

def subtractAll (accumulated : UInt64) : List Sample → UInt64
  | [] => accumulated
  | (_, size) :: rest => subtractAll (accumulated - size) rest

/-- How long ago the oldest sample came. -/
def duration (history : List Sample) (now : Nat) : Nat :=
  match history.getLast? with
  | some (oldest, _) => now - oldest
  | none => 0

def update (divide : UInt64 → Nat → UInt64) (tracker : DataRateTracker) (now : Nat) :
    DataRateTracker :=
  let history := tracker.history.take
    (tracker.history.length - countToRemove tracker.history (now - MAX_DURATION))
  let accumulatedSize := subtractAll tracker.accumulatedSize (removed tracker.history now)
  let duration := duration history now
  { history, accumulatedSize
    rate := if MIN_DURATION ≤ duration then some (divide accumulatedSize duration) else none }

/-- No subtraction goes below zero. -/
def Covers (accumulated : UInt64) : List Sample → Prop
  | [] => True
  | (_, size) :: rest => size ≤ accumulated ∧ Covers (accumulated - size) rest

inductive Op where
  | push (size : UInt64) (time : Nat)
  | update (now : Nat)
  deriving DecidableEq, Repr

def Op.time : Op → Nat
  | .push _ time => time
  | .update now => now

def apply (divide : UInt64 → Nat → UInt64) (tracker : DataRateTracker) : Op → DataRateTracker
  | .push size time => DataRate.push tracker size time
  | .update now => DataRate.update divide tracker now

def applyAll (divide : UInt64 → Nat → UInt64) (ops : List Op) : DataRateTracker :=
  ops.foldl (apply divide) {}

def Ordered (ops : List Op) : Prop := ops.Pairwise fun earlier later => earlier.time ≤ later.time

/-- No update that finds a sample of this time older than five seconds. -/
def Op.spares (time : Nat) : Op → Bool
  | .push _ _ => true
  | .update now => decide (now - MAX_DURATION ≤ time)

/-- The pushed samples, oldest first, that no update after them found older than five seconds. -/
def survivors : List Op → List Sample
  | [] => []
  | .update _ :: rest => survivors rest
  | .push size time :: rest =>
    if rest.all (Op.spares time) then (time, size) :: survivors rest else survivors rest

def total (history : List Sample) : Nat := (history.map fun sample => sample.2.toNat).sum

section Window

/-- Oldest first, what comes from the first sample in time on is all that is in time. -/
theorem dropWhile_eq_filter (deadline : Nat) {samples : List Sample}
    (ordered : samples.Pairwise fun earlier later => earlier.1 ≤ later.1) :
    samples.dropWhile (fun sample => decide (sample.1 < deadline)) =
      samples.filter fun sample => decide (deadline ≤ sample.1) := by
  induction samples with
  | nil => rfl
  | cons sample rest ih =>
    obtain ⟨first, later⟩ := List.pairwise_cons.mp ordered
    by_cases late : sample.1 < deadline
    · rw [List.dropWhile_cons_of_pos (by simpa using late), ih later,
        List.filter_cons_of_neg (by simpa using late)]
    · have inTime : ∀ other ∈ sample :: rest, decide (deadline ≤ other.1) = true := by
        intro other member
        rcases List.mem_cons.mp member with rfl | inside
        · exact decide_eq_true (by omega)
        · have := first other inside
          exact decide_eq_true (by omega)
      rw [List.dropWhile_cons_of_neg (by simpa using late), List.filter_eq_self.mpr inTime]

theorem drop_length_takeWhile (samples : List Sample) (p : Sample → Bool) :
    samples.drop (samples.takeWhile p).length = samples.dropWhile p := by
  have both : samples.takeWhile p ++ samples.dropWhile p = samples :=
    List.takeWhile_append_dropWhile
  have dropped : (samples.takeWhile p ++ samples.dropWhile p).drop (samples.takeWhile p).length =
      samples.dropWhile p := List.drop_left
  rwa [both] at dropped

theorem countToRemove_le (history : List Sample) (deadline : Nat) :
    countToRemove history deadline ≤ history.length := by
  have short := (List.takeWhile_prefix (l := history.reverse)
    fun sample => decide (sample.1 < deadline)).length_le
  rwa [List.length_reverse] at short

/-- What an update keeps of an ordered history is what is not older than five seconds. -/
theorem kept_eq_filter (deadline : Nat) {samples : List Sample}
    (ordered : samples.Pairwise fun earlier later => earlier.1 ≤ later.1) :
    samples.reverse.take (samples.reverse.length - countToRemove samples.reverse deadline) =
      (samples.filter fun sample => decide (deadline ≤ sample.1)).reverse := by
  have few := countToRemove_le samples.reverse deadline
  rw [List.length_reverse] at few
  rw [List.take_reverse, List.length_reverse,
    show samples.length - (samples.length - countToRemove samples.reverse deadline) =
      countToRemove samples.reverse deadline by omega]
  unfold countToRemove
  rw [List.reverse_reverse, drop_length_takeWhile, dropWhile_eq_filter deadline ordered]

theorem total_kept_removed (history : List Sample) (now : Nat) :
    total (history.take (history.length - countToRemove history (now - MAX_DURATION))) +
      total (removed history now) = total history := by
  unfold total removed
  rw [← List.sum_append, ← List.map_append, List.take_append_drop]

end Window

section Sums

theorem total_cons (time : Nat) (size : UInt64) (rest : List Sample) :
    total ((time, size) :: rest) = size.toNat + total rest := rfl

theorem subtractAll_total (samples : List Sample) : ∀ accumulated : UInt64,
    ((subtractAll accumulated samples).toNat + total samples) % 2 ^ 64 = accumulated.toNat := by
  induction samples with
  | nil =>
    intro accumulated
    exact Nat.mod_eq_of_lt accumulated.toNat_lt
  | cons sample rest ih =>
    intro accumulated
    obtain ⟨time, size⟩ := sample
    have later := ih (accumulated - size)
    rw [UInt64.toNat_sub] at later
    have small := accumulated.toNat_lt
    have sizeSmall := size.toNat_lt
    rw [total_cons, subtractAll]
    omega

theorem covers_of_total_le (samples : List Sample) : ∀ {accumulated : UInt64},
    total samples ≤ accumulated.toNat → Covers accumulated samples := by
  induction samples with
  | nil => exact fun _ => trivial
  | cons sample rest ih =>
    intro accumulated enough
    obtain ⟨time, size⟩ := sample
    rw [total_cons] at enough
    have first : size ≤ accumulated := UInt64.le_iff_toNat_le.mpr (by omega)
    refine ⟨first, ih ?_⟩
    rw [UInt64.toNat_sub_of_le _ _ first]
    omega

end Sums

section Runs
variable (divide : UInt64 → Nat → UInt64)

theorem applyAll_concat (ops : List Op) (op : Op) :
    applyAll divide (ops ++ [op]) = apply divide (applyAll divide ops) op := by
  unfold applyAll
  rw [List.foldl_append]
  rfl

/-- A later operation takes away what it does not spare, and a push adds its sample. -/
theorem survivors_concat (op : Op) (ops : List Op) :
    survivors (ops ++ [op]) =
      (survivors ops).filter (fun sample => op.spares sample.1) ++ survivors [op] := by
  induction ops with
  | nil => rfl
  | cons first rest ih =>
    cases first with
    | update now => exact ih
    | push size time =>
      simp only [List.cons_append, survivors, List.all_append, List.all_cons, List.all_nil,
        Bool.and_true, ih, Bool.and_eq_true]
      by_cases later : rest.all (Op.spares time) = true
      · by_cases last : op.spares time = true
        · simp [later, last]
        · simp [later, last]
      · rw [if_neg (fun both => later both.1), if_neg later]

theorem mem_survivors {sample : Sample} (ops : List Op) (member : sample ∈ survivors ops) :
    ∃ op ∈ ops, op.time = sample.1 := by
  induction ops with
  | nil => cases member
  | cons first rest ih =>
    cases first with
    | update now =>
      obtain ⟨op, inside, same⟩ := ih member
      exact ⟨op, List.mem_cons_of_mem _ inside, same⟩
    | push size time =>
      unfold survivors at member
      split at member
      · rcases List.mem_cons.mp member with rfl | later
        · exact ⟨_, List.mem_cons_self, rfl⟩
        · obtain ⟨op, inside, same⟩ := ih later
          exact ⟨op, List.mem_cons_of_mem _ inside, same⟩
      · obtain ⟨op, inside, same⟩ := ih member
        exact ⟨op, List.mem_cons_of_mem _ inside, same⟩

theorem survivors_ordered {ops : List Op} (ordered : Ordered ops) :
    (survivors ops).Pairwise fun earlier later => earlier.1 ≤ later.1 := by
  induction ops with
  | nil => exact List.Pairwise.nil
  | cons first rest ih =>
    obtain ⟨earliest, later⟩ := List.pairwise_cons.mp ordered
    cases first with
    | update now => exact ih later
    | push size time =>
      unfold survivors
      split
      · refine List.pairwise_cons.mpr ⟨fun sample member => ?_, ih later⟩
        obtain ⟨op, inside, same⟩ := mem_survivors rest member
        rw [← same]
        exact earliest op inside
      · exact ih later

theorem ordered_before {ops : List Op} {op : Op} (ordered : Ordered (ops ++ [op])) : Ordered ops :=
  (List.pairwise_append.mp ordered).1

/-- One operation keeps the history the reversed list of the survivors. -/
theorem apply_history {ops : List Op} {tracker : DataRateTracker} (op : Op)
    (ordered : Ordered ops) (holds : tracker.history = (survivors ops).reverse) :
    (apply divide tracker op).history = (survivors (ops ++ [op])).reverse := by
  rw [survivors_concat]
  cases op with
  | push size time =>
    have all : (survivors ops).filter (fun sample => (Op.push size time).spares sample.1) =
        survivors ops := List.filter_eq_self.mpr fun _ _ => rfl
    rw [all, List.reverse_append, ← holds]
    rfl
  | update now =>
    show tracker.history.take _ = (_ ++ []).reverse
    rw [List.append_nil, holds, kept_eq_filter _ (survivors_ordered ordered)]
    rfl

theorem apply_accumulated {tracker : DataRateTracker} (op : Op)
    (holds : tracker.accumulatedSize.toNat = total tracker.history % 2 ^ 64) :
    (apply divide tracker op).accumulatedSize.toNat =
      total (apply divide tracker op).history % 2 ^ 64 := by
  cases op with
  | push size time =>
    show (tracker.accumulatedSize + size).toNat = total ((time, size) :: tracker.history) % 2 ^ 64
    rw [UInt64.toNat_add, total_cons, holds]
    omega
  | update now =>
    have parts := total_kept_removed tracker.history now
    have left := subtractAll_total (removed tracker.history now) tracker.accumulatedSize
    have small := (subtractAll tracker.accumulatedSize (removed tracker.history now)).toNat_lt
    show (subtractAll tracker.accumulatedSize (removed tracker.history now)).toNat =
      total (tracker.history.take _) % 2 ^ 64
    omega

theorem applyAll_history (ops : List Op) : Ordered ops →
    (applyAll divide ops).history = (survivors ops).reverse := by
  induction ops using List.reverseRecOn with
  | nil => exact fun _ => rfl
  | append_singleton ops op ih =>
    intro ordered
    rw [applyAll_concat]
    exact apply_history divide op (ordered_before ordered) (ih (ordered_before ordered))

theorem applyAll_accumulated (ops : List Op) :
    (applyAll divide ops).accumulatedSize.toNat = total (applyAll divide ops).history % 2 ^ 64 := by
  induction ops using List.reverseRecOn with
  | nil => rfl
  | append_singleton ops op ih =>
    rw [applyAll_concat]
    exact apply_accumulated divide op ih

/-- The history holds the pushed samples that no update found too old, newest first, and the
    accumulated size is their sum in words of 64 bits. Where the sum fits a word, it is the sum
    itself, and no subtraction of an update goes below zero. -/
theorem rate_accounting (ops : List Op) (ordered : Ordered ops) :
    (applyAll divide ops).history = (survivors ops).reverse ∧
      (applyAll divide ops).accumulatedSize.toNat = total (applyAll divide ops).history % 2 ^ 64 ∧
      (total (applyAll divide ops).history < 2 ^ 64 →
        (applyAll divide ops).accumulatedSize.toNat = total (applyAll divide ops).history ∧
        ∀ now, Covers (applyAll divide ops).accumulatedSize (removed (applyAll divide ops).history now)) := by
  have summed := applyAll_accumulated divide ops
  refine ⟨applyAll_history divide ops ordered, summed, fun fits => ?_⟩
  rw [Nat.mod_eq_of_lt fits] at summed
  refine ⟨summed, fun now => covers_of_total_le _ ?_⟩
  have parts := total_kept_removed (applyAll divide ops).history now
  omega

end Runs

section Unbounded
variable (divide : UInt64 → Nat → UInt64) (quotient : Nat → Nat → Nat)

/-- The tracker with numbers for its words. -/
def numbers (tracker : DataRateTracker) : VideoReceiver.DataRateTracker :=
  { history := tracker.history.map fun sample => (sample.1, sample.2.toNat)
    accumulatedSize := tracker.accumulatedSize.toNat
    rate := tracker.rate.map UInt64.toNat }

theorem numbers_push (tracker : DataRateTracker) (size : UInt64) (time : Nat)
    (fits : tracker.accumulatedSize.toNat + size.toNat < 2 ^ 64) :
    numbers (DataRate.push tracker size time) = (numbers tracker).push size.toNat time := by
  unfold numbers DataRate.push VideoReceiver.DataRateTracker.push
  simp only [List.map_cons, UInt64.toNat_add, Nat.mod_eq_of_lt fits]

theorem subtractAll_toNat (samples : List Sample) : ∀ {accumulated : UInt64},
    total samples ≤ accumulated.toNat →
      (subtractAll accumulated samples).toNat =
        (samples.map fun sample => (sample.1, sample.2.toNat)).foldl
          (fun size sample => size - sample.2) accumulated.toNat := by
  induction samples with
  | nil => exact fun _ => rfl
  | cons sample rest ih =>
    intro accumulated enough
    obtain ⟨time, size⟩ := sample
    rw [total_cons] at enough
    have first : size ≤ accumulated := UInt64.le_iff_toNat_le.mpr (by omega)
    have less := UInt64.toNat_sub_of_le _ _ first
    rw [subtractAll, ih (by omega), less]
    rfl

theorem countToRemove_numbers (history : List Sample) (deadline : Nat) :
    ((history.map fun sample => (sample.1, sample.2.toNat)).reverse.takeWhile fun sample =>
      decide (sample.1 < deadline)).length = countToRemove history deadline := by
  unfold countToRemove
  rw [← List.map_reverse, List.takeWhile_map, List.length_map]
  rfl

theorem duration_numbers (history : List Sample) (now : Nat) :
    ((history.map fun sample => (sample.1, sample.2.toNat)).getLast?.map
      fun oldest => now - oldest.1).getD 0 = duration history now := by
  unfold duration
  rw [List.getLast?_map]
  cases history.getLast? with
  | none => rfl
  | some oldest => rfl

/-- An update in words is the update in numbers where the words hold the sum of the history. -/
theorem numbers_update (divides : ∀ size duration,
      (divide size duration).toNat = quotient size.toNat duration)
    (tracker : DataRateTracker) (now : Nat)
    (holds : tracker.accumulatedSize.toNat = total tracker.history) :
    numbers (DataRate.update divide tracker now) = (numbers tracker).update quotient now := by
  have parts := total_kept_removed tracker.history now
  have enough : total (removed tracker.history now) ≤ tracker.accumulatedSize.toNat := by omega
  have subtracted := subtractAll_toNat (removed tracker.history now) enough
  unfold numbers DataRate.update VideoReceiver.DataRateTracker.update
  simp only [countToRemove_numbers, List.length_map, ← List.map_take, ← List.map_drop]
  unfold removed at subtracted
  rw [← subtracted, duration_numbers, ← divides]
  congr 1
  split
  · rfl
  · rfl

end Unbounded

/-- Bits per second, for sizes and times of which the product fits. -/
def perSecond (size : UInt64) (duration : Nat) : UInt64 :=
  UInt64.ofNat (size.toNat * 1000000000 / duration)

/-- Two packets of 1200 bytes, six seconds apart, and an update with the second. -/
def sixSeconds : List Op := [.push 9600 0, .push 9600 6000000000, .update 6000000000]

theorem sixSeconds_accounting :
    Ordered sixSeconds ∧
      (applyAll perSecond sixSeconds).history = [(6000000000, 9600)] ∧
      (applyAll perSecond sixSeconds).accumulatedSize.toNat = 9600 := by
  have ordered : Ordered sixSeconds := by
    unfold Ordered sixSeconds
    decide
  obtain ⟨history, _, exact_sum⟩ := rate_accounting perSecond sixSeconds ordered
  have kept : (survivors sixSeconds).reverse = [(6000000000, 9600)] := by decide
  rw [kept] at history
  rw [history] at exact_sum
  exact ⟨ordered, history, (exact_sum (by decide)).1⟩

/-- Two samples of 2^63 bits add up to zero, and the first of them to go is more than that. -/
theorem large_samples_wrap :
    (applyAll perSecond [.push 9223372036854775808 0, .push 9223372036854775808 1]).accumulatedSize = 0 ∧
      total (applyAll perSecond
        [.push 9223372036854775808 0, .push 9223372036854775808 1]).history = 2 ^ 64 ∧
      ¬ Covers 0 (removed (applyAll perSecond
        [.push 9223372036854775808 0, .push 9223372036854775808 1]).history 5000000001) := by
  refine ⟨by decide, by decide, fun covers => ?_⟩
  have only : removed (applyAll perSecond
      [.push 9223372036854775808 0, .push 9223372036854775808 1]).history 5000000001 =
        [(0, 9223372036854775808)] := by decide
  rw [only] at covers
  exact absurd covers.1 (by decide)

end DataRate
