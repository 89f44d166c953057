import Mathlib.Algebra.Order.Field.Power
import Mathlib.Algebra.Order.Ring.Rat
import Mathlib.Tactic.Linarith
import ReportEngine.Decimal.Basic

/-! Decimals as exact numbers. The digit count and the scale bracket a number between two powers of ten, which
is all that comparing looks at unless the leading digits stand at the same place. -/

namespace ReportEngine

theorem ten_zpow_pos (n : ℤ) : (0 : ℚ) < 10 ^ n := zpow_pos (by norm_num) n

theorem ten_zpow_add (m n : ℤ) : (10 : ℚ) ^ (m + n) = 10 ^ m * 10 ^ n := zpow_add₀ (by norm_num) m n

theorem tenTo_pos (n : Nat) : 0 < tenTo n := Nat.pow_pos (by decide)

theorem tenTo_cast (n : Nat) : (tenTo n : ℚ) = 10 ^ (n : ℤ) := by
  rw [tenTo, zpow_natCast]
  exact Nat.cast_pow 10 n

/-- Powers of ten on both sides of a quotient make up one of either sign. -/
theorem tenTo_toNat_cast (exponent : ℤ) : (tenTo exponent.toNat : ℚ) = 10 ^ exponent * tenTo (-exponent).toNat := by
  have sides : (exponent.toNat : ℤ) = exponent + (-exponent).toNat := by omega
  rw [tenTo_cast, tenTo_cast, ← ten_zpow_add, ← sides]

namespace Decimal

open Text

/-- The number that the digits stand for at their scale. -/
def toRat (d : Decimal) : ℚ := d.digits * 10 ^ (-d.scale)

theorem toRat_zero {d : Decimal} (zero : d.digits = 0) : d.toRat = 0 := by
  rw [toRat, zero, Int.cast_zero, zero_mul]

theorem abs_toRat (d : Decimal) : |d.toRat| = (d.digits.natAbs : ℚ) * 10 ^ (-d.scale) := by
  rw [toRat, abs_mul, abs_of_pos (ten_zpow_pos _), Nat.cast_natAbs, Int.cast_abs]

theorem toRat_ofInt (n : ℤ) : (ofInt n).toRat = n := by
  rw [toRat, ofInt, neg_zero, zpow_zero, mul_one]

section Scales

variable {d : Decimal} {scale : Int}

theorem digitsAt_cast (reached : d.scale ≤ scale) : (d.digitsAt scale : ℚ) = d.toRat * 10 ^ scale := by
  have places : ((scale - d.scale).toNat : ℤ) = -d.scale + scale := by omega
  rw [digitsAt, toRat, Int.cast_mul, Int.cast_natCast, tenTo_cast, places, ten_zpow_add, mul_assoc]

theorem natAbs_digitsAt_cast (reached : d.scale ≤ scale) :
    ((d.digitsAt scale).natAbs : ℚ) = |d.toRat| * 10 ^ scale := by
  rw [Nat.cast_natAbs, Int.cast_abs, digitsAt_cast reached, abs_mul, abs_of_pos (ten_zpow_pos scale)]

theorem toRat_atLeastScale (d : Decimal) (scale : Int) : (d.atLeastScale scale).toRat = d.toRat := by
  unfold atLeastScale
  split
  next below =>
    have raised : (⟨d.digitsAt scale, scale⟩ : Decimal).toRat = d.digitsAt scale * 10 ^ (-scale) := rfl
    rw [raised, digitsAt_cast below.le, mul_assoc, ← ten_zpow_add, add_neg_cancel, zpow_zero, mul_one]
  next => rfl

end Scales

section Magnitudes

/-- How many digits stand before the point, less than none if zeros stand behind it. -/
def places (d : Decimal) : ℤ := d.digitCount - d.scale

theorem abs_toRat_lt (d : Decimal) : |d.toRat| < 10 ^ d.places := by
  have below : (d.digits.natAbs : ℚ) < 10 ^ (d.digitCount : ℤ) := by
    rw [← tenTo_cast]
    exact_mod_cast lt_pow_length_digitsOfNat d.digits.natAbs
  rw [abs_toRat, places, sub_eq_add_neg, ten_zpow_add]
  exact mul_lt_mul_of_pos_right below (ten_zpow_pos _)

theorem le_abs_toRat {d : Decimal} (nonzero : d.digits ≠ 0) : 10 ^ (d.places - 1) ≤ |d.toRat| := by
  have written : 1 ≤ d.digitCount := Nat.length_toDigits_pos
  have least : (10 : ℚ) ^ ((d.digitCount - 1 : ℕ) : ℤ) ≤ d.digits.natAbs := by
    rw [← tenTo_cast]
    exact_mod_cast pow_length_digitsOfNat_le (Int.natAbs_pos.mpr nonzero)
  have split : d.places - 1 = ((d.digitCount - 1 : ℕ) : ℤ) + -d.scale := by
    rw [places]
    omega
  rw [abs_toRat, split, ten_zpow_add]
  exact mul_le_mul_of_nonneg_right least (ten_zpow_pos _).le

theorem abs_toRat_lt_of_places_le {d : Decimal} {bound : ℤ} (below : d.places ≤ bound) : |d.toRat| < 10 ^ bound :=
  d.abs_toRat_lt.trans_le (zpow_le_zpow_right₀ (by norm_num) below)

theorem le_abs_toRat_of_lt_places {d : Decimal} {bound : ℤ} (nonzero : d.digits ≠ 0) (above : bound < d.places) :
    10 ^ bound ≤ |d.toRat| :=
  (zpow_le_zpow_right₀ (by norm_num) (by omega)).trans (le_abs_toRat nonzero)

theorem abs_toRat_lt_of_places_lt {left right : Decimal} (nonzero : right.digits ≠ 0)
    (lower : left.places < right.places) : |left.toRat| < |right.toRat| :=
  left.abs_toRat_lt.trans_le (le_abs_toRat_of_lt_places nonzero lower)

end Magnitudes

section Order

variable {left right : Decimal}

/-- At a common scale the digits are in the order of the numbers. -/
private theorem compareSize_eq_cmp (leftNonzero : left.digits ≠ 0) (rightNonzero : right.digits ≠ 0) :
    left.compareSize right = cmp |left.toRat| |right.toRat| := by
  have start : left.compareSize right = (Ord.compare left.places right.places).then
      (Ord.compare (left.digitsAt (max left.scale right.scale)).natAbs
        (right.digitsAt (max left.scale right.scale)).natAbs) := rfl
  rw [start]
  rcases lt_trichotomy left.places right.places with lower | level | higher
  · rw [compare_lt_iff_lt.mpr lower, (abs_toRat_lt_of_places_lt rightNonzero lower).cmp_eq_lt]
    rfl
  · rw [compare_eq_iff_eq.mpr level, Ordering.eq_then, ← cmp_eq_compare,
      ← cmp_mul_pos_right (ten_zpow_pos (max left.scale right.scale)), ← natAbs_digitsAt_cast (le_max_left _ _),
      ← natAbs_digitsAt_cast (le_max_right _ _), Nat.strictMono_cast.cmp_map_eq]
  · rw [compare_gt_iff_gt.mpr higher, (abs_toRat_lt_of_places_lt leftNonzero higher).cmp_eq_gt]
    rfl

/-- The digits, their sign and the number are on the same side of zero. -/
private theorem sign_cases (d : Decimal) :
    d.digits < 0 ∧ d.digits.sign = -1 ∧ d.toRat < 0 ∨ d.digits = 0 ∧ d.digits.sign = 0 ∧ d.toRat = 0 ∨
      0 < d.digits ∧ d.digits.sign = 1 ∧ 0 < d.toRat := by
  rcases lt_trichotomy d.digits 0 with negative | zero | positive
  · exact .inl ⟨negative, Int.sign_eq_neg_one_of_neg negative,
      mul_neg_of_neg_of_pos (Int.cast_lt_zero.mpr negative) (ten_zpow_pos _)⟩
  · exact .inr (.inl ⟨zero, Int.sign_eq_zero_iff_zero.mpr zero, toRat_zero zero⟩)
  · exact .inr (.inr ⟨positive, Int.sign_eq_one_of_pos positive,
      mul_pos (Int.cast_pos.mpr positive) (ten_zpow_pos _)⟩)

/-- Decimals compare as the numbers they stand for. -/
theorem compare_eq_cmp (left right : Decimal) : left.compare right = cmp left.toRat right.toRat := by
  rw [compare]
  rcases left.sign_cases with ⟨negative, first, size⟩ | ⟨zero, first, size⟩ | ⟨positive, first, size⟩ <;>
    rcases right.sign_cases with ⟨below, second, other⟩ | ⟨none, second, other⟩ | ⟨above, second, other⟩ <;>
    rw [first, second]
  · rw [if_neg negative.ne, if_pos negative, compareSize_eq_cmp below.ne negative.ne, abs_of_neg size, abs_of_neg other,
      ← cmp_mul_neg_right (show (-1 : ℚ) < 0 by norm_num) right.toRat, mul_neg_one, mul_neg_one]
    rfl
  · rw [other, size.cmp_eq_lt]
    rfl
  · rw [(size.trans other).cmp_eq_lt]
    rfl
  · rw [size, other.cmp_eq_gt]
    rfl
  · rw [if_pos zero, size, other, cmp_self_eq_eq]
    rfl
  · rw [size, other.cmp_eq_lt]
    rfl
  · rw [(other.trans size).cmp_eq_gt]
    rfl
  · rw [other, size.cmp_eq_gt]
    rfl
  · rw [if_neg positive.ne', if_neg positive.not_gt, compareSize_eq_cmp positive.ne' above.ne', abs_of_pos size,
      abs_of_pos other]
    rfl

end Order

end Decimal

end ReportEngine
