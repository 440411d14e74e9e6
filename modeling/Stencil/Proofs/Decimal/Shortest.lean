import Mathlib.Tactic.Positivity
import Stencil.Decimal.Shortest
import Stencil.Proofs.Code.Digits

/-! The shortest form of a magnitude other than zero has a digit other than zero.
The search begins on the grid of the numbers with one digit, and on this grid and
all finer ones there is a multiple between zero and the magnitude. -/
namespace Stencil.Decimal

variable {magnitude : Magnitude} {interval : Interval} {tie : Tie} {exponent : Int}

theorem power_add (zeros more : Nat) : power (zeros + more) = power zeros * power more := Nat.pow_add 10 zeros more

theorem power_mul (zeros times : Nat) : power (zeros * times) = power zeros ^ times := Nat.pow_mul 10 zeros times

/-- The power of ten with one zero less than a number has digits does not lie above the number. -/
theorem power_pred_count_le {number : Nat} (positive : 0 < number) : power (count number - 1) ≤ number := by
  fun_induction count number with
  | case1 number small => exact positive
  | case2 number large ih =>
    have shorter := ih (by omega)
    have counted : count (number / 10) = count (number / 10) - 1 + 1 := by
      rw [← length_digits]
      have some := List.length_pos_iff.mpr (digits_ne_nil (number / 10))
      omega
    rw [Nat.add_sub_cancel, counted, power_succ]
    omega

/-- An interval whose value, times a large power of ten, does not vanish. -/
structure Interval.IsPositive (interval : Interval) : Prop where
  value_pos : 0 < interval.value
  denominator_pos : 0 < interval.denominator
  denominator_le : interval.denominator ≤ interval.value * power 340

/-- The smallest magnitude is larger than the negative power of ten that its digits are counted from. -/
theorem Interval.isPositive_ofMagnitude (nonzero : magnitude.significand ≠ 0)
    (inFormat : Magnitude.minExponent ≤ magnitude.exponent) : (Interval.ofMagnitude magnitude).IsPositive := by
  have value_pos : 0 < (Interval.ofMagnitude magnitude).value := by
    simp only [ofMagnitude, Nat.one_shiftLeft]
    positivity
  refine ⟨value_pos, by simp only [ofMagnitude, Nat.one_shiftLeft]; positivity, ?_⟩
  have shift_le : (2 - magnitude.exponent).toNat ≤ 13 * 85 := by
    rw [Magnitude.minExponent] at inFormat
    omega
  calc (Interval.ofMagnitude magnitude).denominator
    _ = 2 ^ (2 - magnitude.exponent).toNat := Nat.one_shiftLeft _
    _ ≤ 2 ^ (13 * 85) := Nat.pow_le_pow_right (by decide) shift_le
    _ = (2 ^ 13) ^ 85 := Nat.pow_mul 2 13 85
    _ ≤ power 4 ^ 85 := Nat.pow_le_pow_left (by decide) 85
    _ = power (4 * 85) := (power_mul 4 85).symm
    _ ≤ (Interval.ofMagnitude magnitude).value * power 340 := Nat.le_mul_of_pos_left _ value_pos

namespace Interval.IsPositive

/-- On the grid of the numbers with one digit, and on all finer ones, there is a multiple below the value. -/
theorem unit_le (positive : interval.IsPositive) (fine : exponent ≤ interval.pointPosition - 1) :
    interval.denominator * power exponent.toNat ≤ interval.value * power (-exponent).toNat := by
  have counted : 0 < interval.value * power 340 / interval.denominator :=
    Nat.div_pos positive.denominator_le positive.denominator_pos
  have lower := power_pred_count_le counted
  rw [Nat.le_div_iff_mul_le positive.denominator_pos] at lower
  rw [pointPosition] at fine
  have zeros_le : exponent.toNat + 340 ≤
      count (interval.value * power 340 / interval.denominator) - 1 + (-exponent).toNat := by
    omega
  generalize count (interval.value * power 340 / interval.denominator) - 1 = before at lower zeros_le
  refine Nat.le_of_mul_le_mul_right ?_ (power_pos 340)
  calc interval.denominator * power exponent.toNat * power 340
    _ = interval.denominator * power (exponent.toNat + 340) := by rw [power_add, Nat.mul_assoc]
    _ ≤ interval.denominator * power (before + (-exponent).toNat) := Nat.mul_le_mul_left _ (power_le_power zeros_le)
    _ = power before * interval.denominator * power (-exponent).toNat := by
      rw [power_add, ← Nat.mul_assoc, Nat.mul_comm (power before)]
    _ ≤ interval.value * power 340 * power (-exponent).toNat := Nat.mul_le_mul_right _ lower
    _ = interval.value * power (-exponent).toNat * power 340 := Nat.mul_right_comm ..

/-- What lies below the value on such a grid is not zero. -/
theorem below_pos (positive : interval.IsPositive) (fine : exponent ≤ interval.pointPosition - 1) :
    0 < interval.value * power (-exponent).toNat / (interval.denominator * power exponent.toNat) :=
  Nat.div_pos (positive.unit_le fine) (Nat.mul_pos positive.denominator_pos (power_pos _))

theorem neighbour?_pos (positive : interval.IsPositive) (fine : exponent ≤ interval.pointPosition - 1) {found : Scaled}
    (isNear : interval.neighbour? tie exponent = some found) : 0 < found.digits := by
  have below := positive.below_pos fine
  simp only [neighbour?] at isNear
  split at isNear
  · cases isNear
  · obtain rfl := Option.some.inj isNear
    exact below
  · obtain rfl := Option.some.inj isNear
    exact Nat.succ_pos _
  · repeat' split at isNear
    all_goals
      obtain rfl := Option.some.inj isNear
      first | exact below | exact Nat.succ_pos _

/-- The grids become finer and finer. -/
theorem search_pos (positive : interval.IsPositive) (fine : exponent ≤ interval.pointPosition - 1) (tries : Nat) :
    0 < (interval.search tie exponent tries).digits := by
  induction tries generalizing exponent with
  | zero => exact positive.below_pos fine
  | succ tries ih =>
    rw [search]
    cases near : interval.neighbour? tie exponent with
    | some found => exact positive.neighbour?_pos fine near
    | none => exact ih (by omega)

end Interval.IsPositive

/-- Only zero has no digit other than zero. -/
theorem shortest_pos (nonzero : magnitude.significand ≠ 0) (inFormat : Magnitude.minExponent ≤ magnitude.exponent) :
    0 < (shortest tie magnitude).digits := by
  rw [shortest, if_neg nonzero]
  exact (Interval.isPositive_ofMagnitude nonzero inFormat).search_pos (Int.le_refl _) 17

end Stencil.Decimal
