import Mathlib.Data.Nat.Bitwise
import Nebula.Lib.ByteStrings
import Nebula.Media.TransportFeedback

/- The expansion of truncated counters with every operation checked, over whole runs. A counter
   of so many bits is a number below that power of two. -/
namespace TransportFeedback
open ByteStrings

section Checked

/-- A shift of 1 on the words of 64 bits. -/
def shiftOne (amount : Nat) : Outcome Nat :=
  if amount < 64 then .ok (2 ^ amount) else .error .panic

def checkedAdd (one other : Nat) : Outcome Nat :=
  if one + other < 2 ^ 64 then .ok (one + other) else .error .panic

/-- A word as a value of the truncated type. -/
def tryInto (bits value : Nat) : Outcome Nat :=
  if value < 2 ^ bits then .ok value else .error .panic

/-- Whether the first number is larger than the second by more than half the range. -/
def muchLarger (reallyBig one other : Nat) : Outcome Bool :=
  if other < one then do
    let difference ← checkedSub one other
    pure (decide (reallyBig < difference))
  else pure false

/-- The counter expanded, and the new maximum; the truncated type has so many bits. -/
def expandChecked (bits truncated max width : Nat) : Outcome (Nat × Nat) := do
  let cycle ← shiftOne width
  let mask ← checkedSub cycle 1
  let exponent ← checkedSub width 1
  let half ← shiftOne exponent
  let reallyBig ← tryInto bits half
  let truncatedMax ← tryInto bits (max &&& mask)
  let maxRoc := max >>> width
  let rollover ← muchLarger reallyBig truncatedMax truncated
  let roc ← if rollover then checkedAdd maxRoc 1 else do
    let rollunder ← if 0 < maxRoc then muchLarger reallyBig truncated truncatedMax else pure false
    if rollunder then checkedSub maxRoc 1 else pure maxRoc
  let full := roc <<< width % 2 ^ 64 ||| (truncated &&& mask)
  pure (full, if max < full then full else max)

theorem muchLarger_eq (reallyBig one other : Nat) :
    muchLarger reallyBig one other = .ok (decide (other < one ∧ reallyBig < one - other)) := by
  unfold muchLarger
  by_cases larger : other < one
  · rw [if_pos larger]
    unfold checkedSub
    rw [if_pos (Nat.le_of_lt larger), ok_bind, pure_eq_ok]
    simp [larger]
  · rw [if_neg larger, pure_eq_ok]
    simp [larger]

/-- The cycles and the rest of a word have no bit in common. -/
theorem or_rest {width : Nat} (short : width ≤ 64) (roc rest : Nat) (small : rest < 2 ^ width) :
    roc * 2 ^ width % 2 ^ 64 ||| rest = roc * 2 ^ width % 2 ^ 64 + rest := by
  have whole : 2 ^ 64 = 2 ^ (64 - width) * 2 ^ width := by
    rw [← Nat.pow_add, Nat.sub_add_cancel short]
  rw [whole, Nat.mul_mod_mul_right, ← Nat.shiftLeft_eq, Nat.shiftLeft_add_eq_or_of_lt small]

/-- Nothing goes wrong where the width is that of a truncated counter. -/
theorem expandChecked_eq {bits width max : Nat} (wide : 0 < width) (narrow : width < 64)
    (fits : width ≤ bits) (word : max < 2 ^ 64) (truncated : Nat) :
    expandChecked bits truncated max width = .ok (expandTruncatedCounter truncated max width) := by
  have inType : 2 ^ width ≤ 2 ^ bits := Nat.pow_le_pow_right (by decide) fits
  have halfInType : 2 ^ (width - 1) < 2 ^ bits :=
    Nat.pow_lt_pow_right (by decide) (by omega)
  have restInType : max % 2 ^ width < 2 ^ bits :=
    Nat.lt_of_lt_of_le (Nat.mod_lt _ (Nat.two_pow_pos width)) inType
  have rocFits : max / 2 ^ width + 1 < 2 ^ 64 := by
    have two : 2 ^ 1 ≤ 2 ^ width := Nat.pow_le_pow_right (by decide) wide
    have less : max / 2 ^ width ≤ max / 2 ^ 1 := Nat.div_le_div_left two (by decide)
    omega
  have cycle : shiftOne width = .ok (2 ^ width) := if_pos narrow
  have mask : checkedSub (2 ^ width) 1 = .ok (2 ^ width - 1) := if_pos Nat.one_le_two_pow
  have exponent : checkedSub width 1 = .ok (width - 1) := if_pos wide
  have half : shiftOne (width - 1) = .ok (2 ^ (width - 1)) := if_pos (by omega)
  have really : tryInto bits (2 ^ (width - 1)) = .ok (2 ^ (width - 1)) := if_pos halfInType
  have rest : tryInto bits (max % 2 ^ width) = .ok (max % 2 ^ width) := if_pos restInType
  have next : checkedAdd (max / 2 ^ width) 1 = .ok (max / 2 ^ width + 1) := if_pos rocFits
  have combined : ∀ roc : Nat, roc <<< width % 2 ^ 64 ||| truncated % 2 ^ width =
      roc * 2 ^ width % 2 ^ 64 + truncated % 2 ^ width := by
    intro roc
    rw [Nat.shiftLeft_eq]
    exact or_rest (Nat.le_of_lt narrow) roc _ (Nat.mod_lt _ (Nat.two_pow_pos width))
  unfold expandChecked expandTruncatedCounter
  simp only [cycle, mask, exponent, half, really, ok_bind, Nat.and_two_pow_sub_one_eq_mod, rest,
    Nat.shiftRight_eq_div_pow, muchLarger_eq, pure_eq_ok, decide_eq_true_eq, combined]
  by_cases ahead : truncated < max % 2 ^ width ∧ 2 ^ (width - 1) < max % 2 ^ width - truncated
  · rw [if_pos ahead, if_pos ahead, next, ok_bind]
  · rw [if_neg ahead, if_neg ahead]
    by_cases later : 0 < max / 2 ^ width
    · rw [if_pos later]
      by_cases under : max % 2 ^ width < truncated ∧
          2 ^ (width - 1) < truncated - max % 2 ^ width
      · have before : checkedSub (max / 2 ^ width) 1 = .ok (max / 2 ^ width - 1) := if_pos later
        rw [if_pos under, before, ok_bind, if_pos (And.intro later under)]
      · have notBoth : ¬ (0 < max / 2 ^ width ∧ max % 2 ^ width < truncated ∧
            2 ^ (width - 1) < truncated - max % 2 ^ width) := fun both => under both.2
        rw [if_neg under, if_neg notBoth]
    · have notBoth : ¬ (0 < max / 2 ^ width ∧ max % 2 ^ width < truncated ∧
          2 ^ (width - 1) < truncated - max % 2 ^ width) := fun both => later both.1
      rw [if_neg later, if_neg notBoth, if_neg Bool.false_ne_true]

end Checked

section Runs

/-- The counters one after another, with the maximum that runs along. -/
def expandAll (bits width max : Nat) : List Nat → Outcome (List Nat × Nat)
  | [] => .ok ([], max)
  | full :: rest => do
    let expanded ← expandChecked bits (full % 2 ^ width) max width
    let more ← expandAll bits width expanded.2 rest
    pure (expanded.1 :: more.1, more.2)

/-- Each counter is less than half the range from the maximum before it. -/
def NearMax (width most : Nat) : List Nat → Prop
  | [] => True
  | full :: rest =>
    full < most + 2 ^ (width - 1) ∧ most < full + 2 ^ (width - 1) ∧ full < 2 ^ 64 ∧
      NearMax width (Nat.max most full) rest

instance decidableNearMax (width : Nat) :
    (most : Nat) → (counters : List Nat) → Decidable (NearMax width most counters)
  | _, [] => isTrue trivial
  | most, full :: rest =>
    have := decidableNearMax width (Nat.max most full) rest
    inferInstanceAs (Decidable (full < most + 2 ^ (width - 1) ∧ most < full + 2 ^ (width - 1) ∧
      full < 2 ^ 64 ∧ NearMax width (Nat.max most full) rest))

theorem max_eq (most full : Nat) : (if most < full then full else most) = Nat.max most full := by
  split
  · exact (Nat.max_eq_right (by omega)).symm
  · exact (Nat.max_eq_left (by omega)).symm

theorem expandAll_near {bits width : Nat} (wide : 0 < width) (narrow : width < 64)
    (fits : width ≤ bits) (counters : List Nat) :
    ∀ most : Nat, most < 2 ^ 64 → NearMax width most counters →
      expandAll bits width most counters = .ok (counters, counters.foldl Nat.max most) := by
  induction counters with
  | nil =>
    intro most _ _
    rfl
  | cons full rest ih =>
    intro most word near
    obtain ⟨below, above, fullWord, later⟩ := near
    have still : Nat.max most full < 2 ^ 64 := Nat.max_lt.mpr ⟨word, fullWord⟩
    unfold expandAll
    rw [expandChecked_eq wide narrow fits word, ok_bind,
      expandTruncatedCounter_near wide below above fullWord, max_eq, ih _ still later]
    rfl

/-- The first counter, below one period, where no counter came before. -/
theorem expandTruncatedCounter_first {full width : Nat} (small : full < 2 ^ width) :
    expandTruncatedCounter (full % 2 ^ width) 0 width = (full, full) := by
  have whole : 0 * 2 ^ width % 2 ^ 64 + full = full := by
    rw [Nat.zero_mul, Nat.zero_mod, Nat.zero_add]
  unfold expandTruncatedCounter
  simp only [Nat.mod_eq_of_lt small, Nat.zero_mod, Nat.zero_div, Nat.not_lt_zero, false_and,
    ↓reduceIte, Nat.lt_irrefl, whole]
  rw [max_eq, Nat.max_eq_max, Nat.zero_max]

/-- Where a run may begin: with no counter before, below one period, or near an earlier one. -/
def Begins (width start first : Nat) : Prop :=
  (start = 0 ∧ first < 2 ^ width) ∨
    (first < start + 2 ^ (width - 1) ∧ start < first + 2 ^ (width - 1))

theorem counters_recovered (bits width start first : Nat) (rest : List Nat) (wide : 2 ≤ width)
    (fits : width ≤ bits) (narrow : width < 64) (words : start < 2 ^ 64 ∧ first < 2 ^ 64)
    (begins : Begins width start first) (near : NearMax width (Nat.max start first) rest) :
    expandAll bits width start (first :: rest) =
      .ok (first :: rest, (first :: rest).foldl Nat.max start) := by
  have positive : 0 < width := Nat.lt_of_lt_of_le (by decide) wide
  rcases begins with ⟨rfl, small⟩ | ⟨below, above⟩
  · have later := @expandAll_near bits width positive narrow fits rest first words.2
      (by rwa [Nat.max_eq_max, Nat.zero_max] at near)
    unfold expandAll
    rw [expandChecked_eq positive narrow fits words.1, ok_bind,
      expandTruncatedCounter_first small, later, List.foldl_cons, Nat.max_eq_max, Nat.zero_max]
    rfl
  · exact expandAll_near positive narrow fits (first :: rest) start words.1
      ⟨below, above, words.2, near⟩

/-- A run over the end of a period, with late counters, in 16 bits. -/
theorem counters_recovered_late :
    expandAll 16 16 0 [65000, 65535, 65534, 65537, 65530, 70000] =
      .ok ([65000, 65535, 65534, 65537, 65530, 70000], 70000) :=
  counters_recovered 16 16 0 65000 [65535, 65534, 65537, 65530, 70000] (by decide) (by decide)
    (by decide) (by decide) (Or.inl (by decide)) (by decide)

/-- A type of 64 bits has no room for a mask of its own width. -/
theorem full_width_overflows :
    ¬ ∀ bits ∈ [8, 16, 32, 64], ∀ width start first rest, 2 ≤ width → width ≤ bits →
      start < 2 ^ 64 ∧ first < 2 ^ 64 → Begins width start first →
      NearMax width (Nat.max start first) rest →
      expandAll bits width start (first :: rest) =
        .ok (first :: rest, (first :: rest).foldl Nat.max start) := by
  intro claimed
  have run := claimed 64 (by decide) 64 0 5 [] (by decide) (by decide) (by decide)
    (Or.inl ⟨rfl, by decide⟩) trivial
  cases run

end Runs

end TransportFeedback
