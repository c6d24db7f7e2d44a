import Mathlib.Algebra.Order.Floor.Semiring
import Mathlib.Data.Rat.Floor
import Mathlib.Tactic.Linarith
import Mathlib.Tactic.NormNum

/- Floating-point arithmetic as exact arithmetic with a rounding after each operation. The
   rounding keeps the order, and it leaves as they are the numbers that it has rounded, their
   doubles, and 53 binary digits with the point among them; infinities are left out. -/

structure Rounding where
  round : ℚ → ℚ
  mono : ∀ x y, x ≤ y → round x ≤ round y
  round_round : ∀ x, round (round x) = round x
  round_double : ∀ x, round (2 * round x) = 2 * round x
  dyadic : ∀ n k : ℕ, n ≤ 2 ^ 53 → k ≤ 53 → round (n / 2 ^ k) = n / 2 ^ k

namespace Rounding
variable (fl : Rounding)

/-- Exact arithmetic rounds nothing. -/
def identity : Rounding where
  round := fun x => x
  mono := fun _ _ le => le
  round_round := fun _ => rfl
  round_double := fun _ => rfl
  dyadic := fun _ _ _ _ => rfl

attribute [simp] round_round

theorem whole (n : ℕ) (small : n ≤ 2 ^ 53) : fl.round n = n := by
  have same := fl.dyadic n 0 small (Nat.zero_le _)
  rwa [pow_zero, div_one] at same

@[simp] theorem round_zero : fl.round 0 = 0 := by
  have same := fl.whole 0 (Nat.zero_le _)
  rwa [Nat.cast_zero] at same

@[simp] theorem round_one : fl.round 1 = 1 := by
  have same := fl.whole 1 Nat.one_le_two_pow
  rwa [Nat.cast_one] at same

theorem round_half : fl.round (1 / 2) = 1 / 2 := by
  have same := fl.dyadic 1 1 Nat.one_le_two_pow (by decide)
  rwa [Nat.cast_one, pow_one] at same

theorem round_eighth : fl.round (1 / 8) = 1 / 8 := by
  have same := fl.dyadic 1 3 Nat.one_le_two_pow (by decide)
  norm_num at same ⊢
  exact same

theorem round_nonneg {x : ℚ} (nonneg : 0 ≤ x) : 0 ≤ fl.round x := by
  rw [← fl.round_zero]
  exact fl.mono 0 x nonneg

theorem one_le_round {x : ℚ} (large : 1 ≤ x) : 1 ≤ fl.round x := by
  rw [← fl.round_one]
  exact fl.mono 1 x large

end Rounding
