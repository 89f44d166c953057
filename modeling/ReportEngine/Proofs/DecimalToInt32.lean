import ReportEngine.Proofs.DecimalText
import ReportEngine.Proofs.ExactIntegers
import ReportEngine.Proofs.NearestWhole

/-! Decimals as 32-bit integers. The digit count and the scale alone rule out a number that is too large, and
settle one that is too small to be rounded to anything but zero; every other is rounded by its digits. -/

namespace ReportEngine

namespace Decimal

variable {d : Decimal}

theorem fits64_iff {n : Int} : fits64 n = true ↔ -0x8000000000000000 ≤ n ∧ n < 0x8000000000000000 := by
  rw [fits64, Bool.and_eq_true, decide_eq_true_iff, decide_eq_true_iff]

/-- A word has a negation unless it is the lowest. -/
theorem negate64?_eq {n : Int} (word : fits64 n = true) :
    negate64? n = if n = -0x8000000000000000 then none else some (-n) := by
  obtain ⟨lower, upper⟩ := fits64_iff.mp word
  unfold negate64?
  split
  next fits => rw [if_neg (by have := (fits64_iff.mp fits).2; omega)]
  next beyond =>
    rw [if_pos]
    by_contra other
    exact beyond (fits64_iff.mpr (by omega))

/-- Wherever a word is cut off, it is beyond all bounds that it is compared with. -/
theorem magnitude_lt_iff {bound : ℤ} (word : -0x8000000000000000 < bound ∧ bound ≤ 0x7FFFFFFFFFFFFFFF) :
    d.magnitude < bound ↔ d.places < bound := by
  rw [magnitude, places, saturate64]
  omega

theorem lt_magnitude_iff {bound : ℤ} (word : -0x8000000000000000 ≤ bound ∧ bound < 0x7FFFFFFFFFFFFFFF) :
    bound < d.magnitude ↔ bound < d.places := by
  rw [magnitude, places, saturate64]
  omega

theorem magnitude_neg_iff : d.magnitude < 0 ↔ d.places < 0 := magnitude_lt_iff (by decide)

theorem ten_lt_magnitude_iff : 10 < d.magnitude ↔ 10 < d.places := lt_magnitude_iff (by decide)

/-- With a zero behind the point a number is less than a tenth. -/
private theorem roundsTo_zero (small : d.isZero = true ∨ d.places < 0) : RoundsTo d.toRat 0 := by
  refine .of_abs_lt_half ?_
  rcases small with zero | below
  · rw [toRat_zero (eq_of_beq zero), abs_zero]
    norm_num
  · have tenth : |d.toRat| < 10 ^ (-1 : ℤ) := abs_toRat_lt_of_places_le (by omega)
    norm_num at tenth
    linarith

private theorem not_fits_of_roundsTo {whole : ℤ} (large : 10 ^ 10 ≤ |d.toRat|)
    (rounds : RoundsTo d.toRat whole) : ¬Int32.Fits whole := by
  rintro ⟨lower, upper⟩
  have bounded : |(whole : ℚ)| ≤ 0x80000000 := by
    rw [← Int.cast_abs]
    exact_mod_cast abs_le.mpr ⟨lower, upper.le⟩
  have near := rounds.le_half
  have triangle := abs_sub_abs_le_abs_sub d.toRat whole
  linarith

private theorem large_of_places (nonzero : d.isZero = false) (above : 10 < d.places) :
    10 ^ 10 ≤ |d.toRat| :=
  calc (10 : ℚ) ^ 10 = 10 ^ (10 : ℤ) := by norm_num
    _ ≤ |d.toRat| := le_abs_toRat_of_lt_places (beq_eq_false_iff_ne.mp nonzero) above

private theorem places_of_large (large : 10 ^ 10 ≤ |d.toRat|) : d.isZero = false ∧ 10 < d.places := by
  constructor
  · refine beq_eq_false_iff_ne.mpr fun zero => ?_
    rw [toRat_zero zero, abs_zero] at large
    norm_num at large
  · by_contra below
    have small : (10 : ℚ) ^ d.places ≤ 10 ^ (10 : ℤ) := zpow_le_zpow_right₀ (by norm_num) (Int.not_lt.mp below)
    have bound := d.abs_toRat_lt
    norm_num at small large
    linarith

end Decimal

namespace Value

open Text

variable {d : Decimal}

private theorem toInt32_small (small : d.isZero = true ∨ d.places < 0) : (decimal d).toInt32 = .ok 0 := by
  have guarded : (d.isZero || d.magnitude < 0) = true := by
    rw [Bool.or_eq_true, decide_eq_true_iff, Decimal.magnitude_neg_iff]
    exact small
  rw [toInt32, if_pos guarded]

private theorem toInt32_moderate (nonzero : d.isZero = false) (low : 0 ≤ d.places) (high : d.places ≤ 10) :
    (decimal d).toInt32 = orIncompatible (decimal d) .int32 (Int32.ofInt? d.round) := by
  have unguarded : ¬(d.isZero || d.magnitude < 0) = true := by
    rw [nonzero, Bool.false_or, decide_eq_true_iff, Decimal.magnitude_neg_iff]
    exact Int.not_lt.mpr low
  rw [toInt32, if_neg unguarded, if_neg fun above => Int.not_lt.mpr high (Decimal.ten_lt_magnitude_iff.mp above)]

theorem toInt32_large (large : 10 ^ 10 ≤ |d.toRat|) :
    (decimal d).toInt32 = .error (.conversion (d.toExponentText?.map String.ofList) .decimal .int32) := by
  obtain ⟨nonzero, above⟩ := Decimal.places_of_large large
  have unguarded : ¬(d.isZero || d.magnitude < 0) = true := by
    rw [nonzero, Bool.false_or, decide_eq_true_iff, Decimal.magnitude_neg_iff]
    omega
  rw [toInt32, if_neg unguarded, if_pos (Decimal.ten_lt_magnitude_iff.mpr above)]

/-- Either the number is rounded to an integer that fits, or it has none. Then the conversion is reported, or the program
stops over a scale that has no negation. -/
private theorem toInt32_decimal_cases (d : Decimal) (word : Decimal.fits64 d.scale = true) :
    (∃ n : Int32, (decimal d).toInt32 = .ok n ∧ RoundsTo d.toRat n.toInt) ∨
      (∃ text, (decimal d).toInt32 = .error (.conversion text .decimal .int32) ∧
          (text = none ↔ d.scale = -0x8000000000000000)) ∧
        ∀ whole, RoundsTo d.toRat whole → ¬Int32.Fits whole := by
  by_cases small : d.isZero = true ∨ d.places < 0
  · exact .inl ⟨0, toInt32_small small, Decimal.roundsTo_zero small⟩
  obtain ⟨nonzero, low⟩ := not_or.mp small
  have nonzero := Bool.eq_false_of_not_eq_true nonzero
  rcases Int.lt_or_le 10 d.places with above | high
  · have large := Decimal.large_of_places nonzero above
    refine .inr ⟨⟨_, toInt32_large large, ?_⟩, fun _ => Decimal.not_fits_of_roundsTo large⟩
    rw [Decimal.toExponentText?, Decimal.negate64?_eq word]
    split
    next lowest => exact iff_of_true rfl lowest
    next other => exact iff_of_false nofun other
  · rw [toInt32_moderate nonzero (Int.not_lt.mp low) high]
    have rounds := d.roundsTo_round
    by_cases fits : Int32.Fits d.round
    · refine .inl ⟨Int32.ofInt d.round, by rw [Int32.ofInt?_of_fits fits, orIncompatible], ?_⟩
      rw [Int32.toInt_ofInt_of_fits fits]
      exact rounds
    · have other : d.scale ≠ -0x8000000000000000 := by
        unfold Decimal.places at high
        omega
      refine .inr ⟨⟨some (decimal d).display, ?_, iff_of_false nofun other⟩, fun whole near => ?_⟩
      · rw [Int32.ofInt?_of_not_fits fits, orIncompatible, incompatible]
        rfl
      · rw [near.unique rounds]
        exact fits

theorem toInt32_decimal_iff (word : Decimal.fits64 d.scale = true) (whole : ℤ) :
    (∃ n : Int32, (decimal d).toInt32 = .ok n ∧ n.toInt = whole) ↔ RoundsTo d.toRat whole ∧ Int32.Fits whole := by
  rcases toInt32_decimal_cases d word with ⟨n, outcome, rounds⟩ | ⟨⟨text, outcome, -⟩, beyond⟩
  · rw [outcome]
    constructor
    · rintro ⟨_, ⟨⟩, rfl⟩
      exact ⟨rounds, Int32.fits_toInt _⟩
    · rintro ⟨other, _⟩
      exact ⟨n, rfl, rounds.unique other⟩
  · rw [outcome]
    constructor
    · rintro ⟨_, ⟨⟩, _⟩
    · rintro ⟨rounds, fits⟩
      exact absurd fits (beyond whole rounds)

/-- A decimal converts to an integer exactly if it is rounded to one that fits, and to that one; else the conversion
fails, and at the lowest scale, where writing the exponent overflows, the program stops. The error on a number with
more than ten digits before the point spells that very number. -/
theorem toInt32_decimal_exact (d : Decimal) (word : Decimal.fits64 d.scale = true) :
    (∀ whole : ℤ, (∃ n : Int32, (decimal d).toInt32 = .ok n ∧ n.toInt = whole) ↔
        RoundsTo d.toRat whole ∧ Int32.Fits whole) ∧
      ((¬∃ whole, RoundsTo d.toRat whole ∧ Int32.Fits whole) →
        ∃ text, (decimal d).toInt32 = .error (.conversion text .decimal .int32) ∧
          ((ExprError.conversion text .decimal .int32).stops = true ↔ d.scale = -0x8000000000000000)) ∧
      (10 ^ 10 ≤ |d.toRat| → d.scale ≠ -0x8000000000000000 →
        ∃ text, (decimal d).toInt32 = .error (.conversion (some (String.ofList text)) .decimal .int32) ∧
          text = digitsOfInt d.digits ++ 'e' :: digitsOfInt (-d.scale) ∧ Decimal.read? text = some d) := by
  refine ⟨toInt32_decimal_iff word, fun none => ?_, fun large other => ?_⟩
  · rcases toInt32_decimal_cases d word with ⟨n, _, rounds⟩ | ⟨⟨text, failed, unwritten⟩, _⟩
    · exact absurd ⟨_, rounds, Int32.fits_toInt n⟩ none
    · refine ⟨text, failed, Iff.trans ?_ unwritten⟩
      cases text with
      | none => exact iff_of_true rfl rfl
      | some text => exact iff_of_false nofun nofun
  · have written : d.toExponentText? = some (digitsOfInt d.digits ++ 'e' :: digitsOfInt (-d.scale)) := by
      rw [Decimal.toExponentText?, Decimal.negate64?_eq word, if_neg other, Option.map_some]
    have failed := toInt32_large large
    rw [written] at failed
    exact ⟨_, failed, rfl, Decimal.read?_exponent word⟩

/-- Two and a half, and thirty billion. -/
theorem toInt32_decimal_exact_tie :
    (∃ n : Int32, (decimal ⟨25, 1⟩).toInt32 = .ok n ∧ n.toInt = 2) ∧
      (∃ text, (decimal ⟨3, -10⟩).toInt32 = .error (.conversion text .decimal .int32) ∧
        (ExprError.conversion text .decimal .int32).stops ≠ true) ∧
      ∃ text, (decimal ⟨3, -10⟩).toInt32 = .error (.conversion (some (String.ofList text)) .decimal .int32) ∧
        text = digitsOfInt 3 ++ 'e' :: digitsOfInt 10 ∧ Decimal.read? text = some ⟨3, -10⟩ := by
  have tied : RoundsTo (Decimal.toRat ⟨25, 1⟩) 2 := .inr ⟨by norm_num [Decimal.toRat], rfl⟩
  have large : 10 ^ 10 ≤ |Decimal.toRat ⟨3, -10⟩| := by
    norm_num [Decimal.toRat]
  have beyond : ¬∃ whole, RoundsTo (Decimal.toRat ⟨3, -10⟩) whole ∧ Int32.Fits whole := by
    rintro ⟨_, rounds, fits⟩
    exact Decimal.not_fits_of_roundsTo large rounds fits
  obtain ⟨converts, _⟩ := toInt32_decimal_exact ⟨25, 1⟩ (by decide)
  obtain ⟨_, fails, reports⟩ := toInt32_decimal_exact ⟨3, -10⟩ (by decide)
  obtain ⟨text, failed, stops⟩ := fails beyond
  exact ⟨(converts 2).mpr ⟨tied, by decide⟩, ⟨text, failed, fun halted => absurd (stops.mp halted) (by decide)⟩,
    reports large (by decide)⟩

/-- One at the lowest scale stops the program, although there is a text that spells it. -/
theorem toInt32_decimal_lowestScale :
    let d : Decimal := ⟨1, -0x8000000000000000⟩
    Decimal.fits64 d.scale = true ∧ 10 ^ 10 ≤ |d.toRat| ∧
      (decimal d).toInt32 = .error (.conversion none .decimal .int32) ∧
      (ExprError.conversion none .decimal .int32).stops = true ∧
      String.ofList (digitsOfInt d.digits ++ 'e' :: digitsOfInt (-d.scale)) = "1e9223372036854775808" ∧
      Decimal.read? "1e9223372036854775808".toList = some d := by
  intro d
  have large : 10 ^ 10 ≤ |d.toRat| := Decimal.large_of_places rfl (by decide)
  exact ⟨by decide, large, toInt32_large large, rfl, by decide, by decide⟩

end Value

end ReportEngine
