import Mathlib.Data.Rat.Lemmas
import ReportEngine.Proofs.DecimalToInt32
import ReportEngine.Proofs.ExactDoubles

/-! What the order of magnitude of a decimal tells of its size. It brackets the number between two powers of ten, so a
number that is beyond all doubles, too small for any, or far from the 32-bit integers is known without its digits.
A magnitude that is cut off at the end of a word still tells the same. -/

namespace ReportEngine

section Powers

theorem twoTo_cast (n : Nat) : (twoTo n : ℚ) = 2 ^ n := Nat.cast_pow 2 n

theorem two_zpow_neg_mul_twoTo (n : Nat) : (2 : ℚ) ^ (-n : ℤ) * twoTo n = 1 := by
  rw [twoTo_cast, zpow_neg, zpow_natCast]
  exact inv_mul_cancel₀ (pow_ne_zero n two_ne_zero)

private theorem two_pow_le_ten_pow : (2 : ℚ) ^ 1024 ≤ 10 ^ (309 : ℤ) := by
  have whole : twoTo 1024 ≤ tenTo 309 := by decide +kernel
  rw [← twoTo_cast]
  exact (Nat.cast_le.mpr whole).trans_eq (tenTo_cast 309)

private theorem ten_zpow_le_two_zpow : (10 : ℚ) ^ (-325 : ℤ) ≤ 2 ^ (-1075 : ℤ) := by
  have whole : twoTo 1075 ≤ tenTo 325 := by decide +kernel
  have units : (0 : ℚ) < twoTo 1075 := Nat.cast_pos.mpr (Double.twoTo_pos 1075)
  refine le_of_mul_le_mul_right ?_ units
  calc (10 : ℚ) ^ (-325 : ℤ) * twoTo 1075 ≤ 10 ^ (-325 : ℤ) * 10 ^ (325 : ℤ) :=
        mul_le_mul_of_nonneg_left ((Nat.cast_le.mpr whole).trans_eq (tenTo_cast 325)) (ten_zpow_pos _).le
    _ = 1 := by rw [← ten_zpow_add, neg_add_cancel, zpow_zero]
    _ = 2 ^ (-1075 : ℤ) * twoTo 1075 := (two_zpow_neg_mul_twoTo 1075).symm

end Powers

namespace Double

/-- The double nearest to an exact number. -/
def ofRat (exact : ℚ) : Double := ofRatio (exact < 0) exact.num.natAbs exact.den

section Nearest

variable {exact : ℚ}

private theorem natAbs_num_cast (exact : ℚ) : (exact.num.natAbs : ℚ) = |exact| * exact.den := by
  rw [Nat.cast_natAbs, Int.cast_abs, ← Rat.mul_den_eq_num, abs_mul, Nat.abs_cast]

private theorem unitsAt_infinityRank : unitsAt infinityRank = twoTo 1024 * one := by decide +kernel

/-- The power of two after the last finite double is the first number that counts as infinite. -/
theorem ofRat_of_large (large : 2 ^ 1024 ≤ |exact|) : ofRat exact = infinite (exact < 0) := by
  have scaled : ((twoTo 1024 * exact.den : ℕ) : ℚ) ≤ exact.num.natAbs := by
    rw [Nat.cast_mul, twoTo_cast, natAbs_num_cast]
    exact mul_le_mul_of_nonneg_right large (Nat.cast_nonneg _)
  have beyond : infinityRank ≤ nearestRank (exact.num.natAbs * one) exact.den :=
    calc infinityRank = nearestRank (unitsAt infinityRank * 1) 1 := (nearestRank_unitsAt infinityRank Nat.one_pos).symm
      _ ≤ nearestRank (exact.num.natAbs * one) exact.den := by
          refine nearestRank_mono Nat.one_pos exact.den_pos ?_
          rw [unitsAt_infinityRank, Nat.mul_one, Nat.mul_one, Nat.mul_right_comm]
          exact Nat.mul_le_mul_right one (Nat.cast_le.mp scaled)
  rw [ofRat, ofRatio, nearest, ofRank]
  exact dif_neg (Nat.not_lt.mpr beyond)

/-- Less than half a unit is nearest to none. -/
theorem ofRat_of_small (small : |exact| < 2 ^ (-1075 : ℤ)) : ofRat exact = signedZero (exact < 0) := by
  have twice : twoTo 1075 = 2 * one := by decide +kernel
  have cancels : (2 : ℚ) ^ (-1075 : ℤ) * twoTo 1075 = 1 := two_zpow_neg_mul_twoTo 1075
  have positive : 0 < exact.den * twoTo 1075 := Nat.mul_pos exact.den_pos (twoTo_pos 1075)
  generalize twoTo 1075 = units at *
  generalize (2 : ℚ) ^ (-1075 : ℤ) = half at *
  have scaled : ((exact.num.natAbs * units : ℕ) : ℚ) < exact.den :=
    calc ((exact.num.natAbs * units : ℕ) : ℚ) = |exact| * (exact.den * units : ℕ) := by
          rw [Nat.cast_mul, Nat.cast_mul, natAbs_num_cast, mul_assoc]
      _ < half * (exact.den * units : ℕ) := mul_lt_mul_of_pos_right small (Nat.cast_pos.mpr positive)
      _ = exact.den * (half * units) := by rw [Nat.cast_mul, mul_left_comm]
      _ = exact.den := by rw [cancels, Rat.mul_one]
  have unit : unitsAt 0 + unitsAt (0 + 1) = 1 := rfl
  have none : nearestRank (exact.num.natAbs * one) exact.den ≤ 0 := by
    refine (nearestRank_le_iff exact.den_pos).mpr (.inl ?_)
    rw [unit, Nat.one_mul, Nat.mul_left_comm, ← twice]
    exact Nat.cast_lt.mp scaled
  rw [ofRat, ofRatio, nearest, Nat.le_zero.mp none]
  rfl

end Nearest

end Double

namespace Decimal

variable {d : Decimal}

/-- A magnitude that fits a word is how many digits stand before the point. -/
theorem magnitude_of_fits (word : fits64 d.places = true) : d.magnitude = d.places := by
  have bounds := fits64_iff.mp word
  rw [places] at bounds
  rw [magnitude, places, saturate64]
  omega

theorem isNegative_eq (d : Decimal) : d.isNegative = decide (d.toRat < 0) := by
  refine decide_eq_decide.mpr ?_
  have scaled := mul_lt_mul_iff_left₀ (b := (d.digits : ℚ)) (c := 0) (ten_zpow_pos (-d.scale))
  rw [zero_mul, Int.cast_lt_zero] at scaled
  exact scaled.symm

private theorem infinite_of_magnitude (nonzero : d.digits ≠ 0) (large : 309 < d.magnitude) :
    2 ^ 1024 ≤ |d.toRat| ∧ Double.ofRat d.toRat = .infinite d.isNegative ∧ d.toDouble = .infinite d.isNegative := by
  have size : (2 : ℚ) ^ 1024 ≤ |d.toRat| :=
    two_pow_le_ten_pow.trans (le_abs_toRat_of_lt_places nonzero ((lt_magnitude_iff (by decide)).mp large))
  have unguarded : ¬d.isZero = true := fun zero => nonzero (eq_of_beq zero)
  refine ⟨size, ?_, ?_⟩
  · rw [Double.ofRat_of_large size, isNegative_eq]
  · rw [toDouble, if_neg unguarded, if_pos large]

private theorem signedZero_of_magnitude (nonzero : d.digits ≠ 0) (small : d.magnitude < -324) :
    |d.toRat| < 2 ^ (-1075 : ℤ) ∧ Double.ofRat d.toRat = .signedZero d.isNegative ∧
      d.toDouble = .signedZero d.isNegative := by
  have below : d.places < -324 := (magnitude_lt_iff (by decide)).mp small
  have size : |d.toRat| < 2 ^ (-1075 : ℤ) := (abs_toRat_lt_of_places_le (by omega)).trans_le ten_zpow_le_two_zpow
  have unguarded : ¬d.isZero = true := fun zero => nonzero (eq_of_beq zero)
  refine ⟨size, ?_, ?_⟩
  · rw [Double.ofRat_of_small size, isNegative_eq]
  · rw [toDouble, if_neg unguarded, if_neg (by omega), if_pos small]

/-- The magnitude of a decimal that is not zero brackets its size, as long as a word holds the difference of digit count
and scale. What the conversions conclude from the magnitude is right even if it does not: no double but an infinite one
is nearest, none but a zero, it is beyond the 32-bit integers, it is less than a half. -/
theorem magnitude_decides (d : Decimal) (nonzero : d.digits ≠ 0) :
    (fits64 (d.digitCount - d.scale) = true →
        10 ^ (d.magnitude - 1) ≤ |d.toRat| ∧ |d.toRat| < 10 ^ d.magnitude) ∧
      (309 < d.magnitude → 2 ^ 1024 ≤ |d.toRat| ∧ Double.ofRat d.toRat = .infinite d.isNegative ∧
        d.toDouble = .infinite d.isNegative) ∧
      (d.magnitude < -324 → |d.toRat| < 2 ^ (-1075 : ℤ) ∧ Double.ofRat d.toRat = .signedZero d.isNegative ∧
        d.toDouble = .signedZero d.isNegative) ∧
      (10 < d.magnitude → 2 ^ 31 < |d.toRat|) ∧ (d.magnitude < 0 → |d.toRat| < 1 / 2) := by
  refine ⟨fun word => ?_, infinite_of_magnitude nonzero, signedZero_of_magnitude nonzero, fun large => ?_,
    fun small => ?_⟩
  · rw [magnitude_of_fits word]
    exact ⟨le_abs_toRat nonzero, d.abs_toRat_lt⟩
  · calc (2 : ℚ) ^ 31 < 10 ^ (10 : ℤ) := by norm_num
      _ ≤ |d.toRat| := le_abs_toRat_of_lt_places nonzero (ten_lt_magnitude_iff.mp large)
  · have below : d.places < 0 := magnitude_neg_iff.mp small
    calc |d.toRat| < 10 ^ (-1 : ℤ) := abs_toRat_lt_of_places_le (by omega)
      _ < 1 / 2 := by norm_num

/-- Three hundred and fourteen hundredths, and the scales at both ends of a word. At the lower one the difference is cut
off. -/
theorem magnitude_decides_pi :
    (10 ^ (0 : ℤ) ≤ |toRat ⟨314, 2⟩| ∧ |toRat ⟨314, 2⟩| < 10 ^ (1 : ℤ)) ∧
      (fits64 (digitCount ⟨-1, -0x8000000000000000⟩ - -0x8000000000000000) = false ∧
        2 ^ 1024 ≤ |toRat ⟨-1, -0x8000000000000000⟩| ∧ toDouble ⟨-1, -0x8000000000000000⟩ = .infinite true ∧
        2 ^ 31 < |toRat ⟨-1, -0x8000000000000000⟩|) ∧
      |toRat ⟨7, 0x7FFFFFFFFFFFFFFF⟩| < 2 ^ (-1075 : ℤ) ∧ toDouble ⟨7, 0x7FFFFFFFFFFFFFFF⟩ = .zero ∧
      |toRat ⟨7, 0x7FFFFFFFFFFFFFFF⟩| < 1 / 2 := by
  obtain ⟨brackets, _⟩ := magnitude_decides ⟨314, 2⟩ (by decide)
  obtain ⟨_, overflows, _, exceeds, _⟩ := magnitude_decides ⟨-1, -0x8000000000000000⟩ (by decide)
  obtain ⟨_, _, underflows, _, vanishes⟩ := magnitude_decides ⟨7, 0x7FFFFFFFFFFFFFFF⟩ (by decide)
  obtain ⟨large, _, infinite⟩ := overflows (by decide)
  obtain ⟨small, _, zero⟩ := underflows (by decide)
  exact ⟨brackets (by decide), ⟨by decide, large, infinite, exceeds (by decide)⟩, small, zero, vanishes (by decide)⟩

end Decimal

end ReportEngine
