import Mathlib.Tactic.Ring
import ReportEngine.Decimal.Nearest
import ReportEngine.Proofs.ExactDecimals
import ReportEngine.Proofs.NearestDoubles

/-! Rounding to whole numbers, measured against exact numbers: the nearest one, and of two that are equally near
the even one. -/

namespace ReportEngine

/-- The whole number that an exact one is rounded to. -/
def RoundsTo (exact : ℚ) (whole : ℤ) : Prop :=
  |exact - whole| < 1 / 2 ∨ |exact - whole| = 1 / 2 ∧ whole % 2 = 0

namespace RoundsTo

variable {exact : ℚ} {whole : ℤ}

theorem le_half (rounds : RoundsTo exact whole) : |exact - whole| ≤ 1 / 2 :=
  rounds.elim le_of_lt fun tied => tied.1.le

theorem of_abs_lt_half (small : |exact| < 1 / 2) : RoundsTo exact 0 := by
  left
  rw [Int.cast_zero, sub_zero]
  exact small

theorem neg (rounds : RoundsTo exact whole) : RoundsTo (-exact) (-whole) := by
  have turned : |-exact - ((-whole : ℤ) : ℚ)| = |exact - whole| := by
    rw [Int.cast_neg, ← neg_sub', abs_neg]
  rw [RoundsTo, turned]
  exact rounds.imp_right fun ⟨tied, even⟩ => ⟨tied, by omega⟩

/-- Two whole numbers this near are neighbours, and only one of two neighbours is even. -/
theorem unique {other : ℤ} (first : RoundsTo exact whole) (second : RoundsTo exact other) : whole = other := by
  have near := abs_le.mp first.le_half
  have close := abs_le.mp second.le_half
  have above : whole ≤ other + 1 := by
    have bound : (whole : ℚ) ≤ ((other + 1 : ℤ) : ℚ) := by
      push_cast
      linarith
    exact_mod_cast bound
  have below : other ≤ whole + 1 := by
    have bound : (other : ℚ) ≤ ((whole + 1 : ℤ) : ℚ) := by
      push_cast
      linarith
    exact_mod_cast bound
  by_contra distinct
  have apart : |(whole : ℚ) - other| = 1 := by
    rcases lt_or_gt_of_ne distinct with lower | higher
    · have next : other = whole + 1 := by omega
      rw [next]
      push_cast
      norm_num
    · have next : whole = other + 1 := by omega
      rw [next]
      push_cast
      norm_num
  have triangle : |(whole : ℚ) - other| ≤ |exact - whole| + |exact - other| := by
    rw [abs_sub_comm exact (whole : ℚ)]
    exact abs_sub_le _ _ _
  rcases first with nearer | ⟨tied, even⟩
  · linarith [second.le_half]
  · rcases second with nearer | ⟨_, alsoEven⟩
    · linarith
    · omega

end RoundsTo

namespace Double

variable {denominator : Nat}

theorem roundsTo_halfEven (numerator : Nat) (positive : 0 < denominator) :
    RoundsTo (numerator / denominator) (halfEven numerator denominator) := by
  have size : (0 : ℚ) < denominator := Nat.cast_pos.mpr positive
  have scaled : (numerator : ℚ) / denominator * denominator = numerator := div_mul_cancel₀ _ size.ne'
  have upper := (halfEven_le_iff positive).mp (Nat.le_refl (halfEven numerator denominator))
  have lower := (le_halfEven_iff positive).mp (Nat.le_refl (halfEven numerator denominator))
  generalize (numerator : ℚ) / denominator = exact at *
  generalize halfEven numerator denominator = whole at *
  rw [RoundsTo, Int.cast_natCast]
  rcases upper with before | ⟨above, even⟩
  · have before : exact < whole + 1 / 2 := by
      refine lt_of_mul_lt_mul_right ?_ size.le
      have twice : (2 * numerator : ℚ) < (2 * whole + 1) * denominator := by exact_mod_cast before
      linarith
    rcases lower with behind | ⟨below, even⟩
    · left
      have behind : (whole : ℚ) - 1 / 2 < exact := by
        refine lt_of_mul_lt_mul_right ?_ size.le
        have twice : (2 * whole * denominator : ℚ) < 2 * numerator + denominator := by exact_mod_cast behind
        linarith
      exact abs_lt.mpr ⟨by linarith, by linarith⟩
    · right
      have tied : exact = whole - 1 / 2 := by
        refine mul_right_cancel₀ size.ne' ?_
        have twice : (2 * whole * denominator : ℚ) = 2 * numerator + denominator := by exact_mod_cast below
        linarith
      rw [tied, sub_sub_cancel_left, abs_neg]
      exact ⟨abs_of_pos (by norm_num), by omega⟩
  · right
    have tied : exact = whole + 1 / 2 := by
      refine mul_right_cancel₀ size.ne' ?_
      have twice : (2 * numerator : ℚ) = (2 * whole + 1) * denominator := by exact_mod_cast above
      linarith
    rw [tied, add_sub_cancel_left]
    exact ⟨abs_of_pos (by norm_num), by omega⟩

end Double

/-- A decimal is rounded by its digits, cut at the point. -/
theorem Decimal.roundsTo_round (d : Decimal) : RoundsTo d.toRat d.round := by
  have aligned : (max d.scale 0 : ℤ) = (d.scale.toNat : ℤ) := by omega
  have size : ((d.digitsAt (max d.scale 0)).natAbs : ℚ) / tenTo d.scale.toNat = |d.toRat| := by
    rw [natAbs_digitsAt_cast (le_max_left _ _), tenTo_cast, aligned, mul_div_cancel_right₀ _ (ten_zpow_pos _).ne']
  have rounds := Double.roundsTo_halfEven (d.digitsAt (max d.scale 0)).natAbs (tenTo_pos d.scale.toNat)
  rw [size] at rounds
  unfold round isNegative
  dsimp only
  split
  next negative =>
    have below : d.toRat ≤ 0 :=
      mul_nonpos_of_nonpos_of_nonneg (Int.cast_nonpos.mpr (of_decide_eq_true negative).le) (ten_zpow_pos _).le
    have turned := rounds.neg
    rw [abs_of_nonpos below, neg_neg] at turned
    exact turned
  next positive =>
    have above : 0 ≤ d.toRat := by
      refine mul_nonneg (Int.cast_nonneg ?_) (ten_zpow_pos _).le
      exact Int.not_lt.mp fun negative => positive (decide_eq_true negative)
    rw [abs_of_nonneg above] at rounds
    exact rounds

end ReportEngine
