import ReportEngine.Double.Basic

/-! The nearest rank, told by the points halfway between neighbours. It never falls where the quotient rises, and
a quotient that is near enough to a magnitude has its rank. -/

namespace ReportEngine.Double

theorem twoTo_pos (exponent : Nat) : 0 < twoTo exponent := Nat.two_pow_pos exponent

theorem one_pos : 0 < one := twoTo_pos 1074

section Whole

variable {numerator denominator whole : Nat}

/-- Rounding reaches a whole number's successor beyond the half between them, or at it from an odd number. -/
theorem halfEven_le_iff (positive : 0 < denominator) :
    halfEven numerator denominator ≤ whole ↔
      2 * numerator < (2 * whole + 1) * denominator ∨
        2 * numerator = (2 * whole + 1) * denominator ∧ whole % 2 = 0 := by
  have split := Nat.div_add_mod numerator denominator
  have fits := Nat.mod_lt numerator positive
  unfold halfEven
  generalize numerator / denominator = quotient at *
  generalize numerator % denominator = rest at *
  subst split
  rw [Nat.add_mul, Nat.one_mul, Nat.mul_assoc, Nat.mul_comm whole denominator]
  simp only [Bool.or_eq_true, Bool.and_eq_true, decide_eq_true_eq, beq_iff_eq]
  rcases Nat.lt_trichotomy quotient whole with below | same | above
  · have reached : denominator * (quotient + 1) ≤ denominator * whole := Nat.mul_le_mul_left _ below
    rw [Nat.mul_succ] at reached
    refine iff_of_true ?_ (.inl (by omega))
    split <;> omega
  · subst same
    split <;> omega
  · have passed : denominator * (whole + 1) ≤ denominator * quotient := Nat.mul_le_mul_left _ above
    rw [Nat.mul_succ] at passed
    refine iff_of_false ?_ (by omega)
    split <;> omega

theorem le_halfEven_iff (positive : 0 < denominator) :
    whole ≤ halfEven numerator denominator ↔
      2 * whole * denominator < 2 * numerator + denominator ∨
        2 * whole * denominator = 2 * numerator + denominator ∧ whole % 2 = 0 := by
  cases whole with
  | zero => exact iff_of_true (Nat.zero_le _) (.inl (by omega))
  | succ before =>
    have shifted : 2 * (before + 1) * denominator = (2 * before + 1) * denominator + denominator :=
      Nat.succ_mul (2 * before + 1) denominator
    rw [Nat.succ_le_iff, ← Nat.not_le, halfEven_le_iff positive, shifted]
    omega

theorem halfEven_le_of_le (positive : 0 < denominator) (le : numerator ≤ whole * denominator) :
    halfEven numerator denominator ≤ whole := by
  refine (halfEven_le_iff positive).mpr (.inl ?_)
  rw [Nat.add_mul, Nat.one_mul, Nat.mul_assoc]
  omega

theorem le_halfEven_of_le (positive : 0 < denominator) (le : whole * denominator ≤ numerator) :
    whole ≤ halfEven numerator denominator := by
  refine (le_halfEven_iff positive).mpr (.inl ?_)
  rw [Nat.mul_assoc]
  omega

end Whole

section Ranks

/-- A rank as a shift and a significand, which has its leading bit unless there is no shift. -/
structure Placed (rank shift significand : Nat) : Prop where
  split : rank = shift * binade + significand
  full : shift = 0 ∨ binade ≤ significand
  below : significand < 2 * binade

theorem exists_placed (rank : Nat) : ∃ shift significand, Placed rank shift significand := by
  by_cases small : rank < binade
  · exact ⟨0, rank, by omega, .inl rfl, by omega⟩
  · have split := Nat.div_add_mod rank binade
    have rest : rank % binade < binade := Nat.mod_lt rank (by decide)
    have shifted : 1 ≤ rank / binade := Nat.div_pos (Nat.le_of_not_lt small) (by decide)
    refine ⟨rank / binade - 1, binade + rank % binade, ?_, .inr (Nat.le_add_right _ _), by omega⟩
    have covered : binade ≤ rank / binade * binade := Nat.le_mul_of_pos_left _ shifted
    rw [Nat.mul_comm] at split
    rw [Nat.sub_mul]
    omega

/-- The next power of two may be taken for a significand as well. -/
theorem unitsAt_shifted {shift significand : Nat} (full : shift = 0 ∨ binade ≤ significand)
    (reached : significand ≤ 2 * binade) : unitsAt (shift * binade + significand) = significand * twoTo shift := by
  by_cases small : significand < binade
  · obtain rfl : shift = 0 := by omega
    rw [Nat.zero_mul, Nat.zero_add, unitsAt, if_pos small]
    exact (Nat.mul_one significand).symm
  have large : ¬shift * binade + significand < binade := by
    unfold binade at *
    omega
  rw [unitsAt, if_neg large]
  rcases Nat.lt_or_eq_of_le reached with inside | top
  · have quotient : (shift * binade + significand) / binade - 1 = shift := by
      unfold binade at *
      omega
    have rest : binade + (shift * binade + significand) % binade = significand := by
      unfold binade at *
      omega
    rw [quotient, rest]
  · have quotient : (shift * binade + significand) / binade - 1 = shift + 1 := by
      unfold binade at *
      omega
    have rest : (shift * binade + significand) % binade = 0 := by
      unfold binade at *
      omega
    have doubled : twoTo (shift + 1) = 2 * twoTo shift := Nat.pow_succ'
    rw [quotient, rest, doubled, top, Nat.add_zero, Nat.mul_left_comm, Nat.mul_assoc]

variable {rank shift significand : Nat}

theorem Placed.unitsAt (placed : Placed rank shift significand) : unitsAt rank = significand * twoTo shift := by
  rw [placed.split, unitsAt_shifted placed.full (Nat.le_of_lt placed.below)]

theorem Placed.unitsAt_succ (placed : Placed rank shift significand) :
    Double.unitsAt (rank + 1) = (significand + 1) * twoTo shift := by
  rw [placed.split, Nat.add_assoc, unitsAt_shifted (placed.full.imp_right Nat.le_succ_of_le) placed.below]

private theorem unitsAt_lt_succ (rank : Nat) : unitsAt rank < unitsAt (rank + 1) := by
  obtain ⟨shift, significand, placed⟩ := exists_placed rank
  rw [placed.unitsAt, placed.unitsAt_succ]
  exact Nat.mul_lt_mul_of_pos_right (Nat.lt_succ_self significand) (twoTo_pos shift)

theorem unitsAt_lt {other : Nat} (lower : rank < other) : unitsAt rank < unitsAt other := by
  induction other with
  | zero => exact absurd lower (Nat.not_lt_zero rank)
  | succ other ih =>
    rcases Nat.lt_or_eq_of_le (Nat.le_of_lt_succ lower) with below | rfl
    · exact Nat.lt_trans (ih below) (unitsAt_lt_succ other)
    · exact unitsAt_lt_succ rank

theorem unitsAt_le {other : Nat} (le : rank ≤ other) : unitsAt rank ≤ unitsAt other := by
  rcases Nat.lt_or_eq_of_le le with lower | rfl
  · exact Nat.le_of_lt (unitsAt_lt lower)
  · exact Nat.le_refl _

theorem unitsAt_eq_zero : unitsAt rank = 0 ↔ rank = 0 := by
  constructor
  · intro none
    refine Nat.eq_zero_of_not_pos fun positive => ?_
    have above := unitsAt_lt positive
    omega
  · rintro rfl
    rfl

/-- Neighbours are further apart than the sixteenth decimal digit. -/
theorem unitsAt_gap (rank : Nat) :
    unitsAt (rank + 1) + 10000000000000000 * unitsAt rank < 10000000000000000 * unitsAt (rank + 1) := by
  obtain ⟨shift, significand, placed⟩ := exists_placed rank
  have fits : significand < 2 * 0x10000000000000 := placed.below
  have positive := twoTo_pos shift
  rw [placed.unitsAt, placed.unitsAt_succ, Nat.succ_mul]
  have room : significand * twoTo shift < 2 * 0x10000000000000 * twoTo shift := Nat.mul_lt_mul_of_pos_right fits positive
  omega

end Ranks

section Nearest

variable {numerator denominator : Nat}

private theorem binade_mul_twoTo (shift : Nat) : binade * twoTo shift = twoTo (52 + shift) := (Nat.pow_add 2 52 shift).symm

private theorem two_mul_binade_mul_twoTo (shift : Nat) : 2 * binade * twoTo shift = twoTo (53 + shift) :=
  (Nat.pow_add 2 53 shift).symm

/-- The shift that a quotient is rounded at leaves it a significand. -/
private theorem shift_bounds (numerator : Nat) (positive : 0 < denominator) :
    let shift := (numerator / denominator).log2 - 52
    (shift = 0 ∨ binade * (denominator * twoTo shift) ≤ numerator) ∧
      numerator < 2 * binade * (denominator * twoTo shift) := by
  have lower := Nat.mul_div_le numerator denominator
  have upper := Nat.lt_mul_div_succ numerator positive
  generalize numerator / denominator = quotient at *
  intro shift
  constructor
  · by_cases small : quotient.log2 ≤ 52
    · exact .inl (Nat.sub_eq_zero_of_le small)
    right
    have leading : 52 + shift = quotient.log2 := Nat.add_sub_cancel' (Nat.le_of_not_le small)
    have nonzero : quotient ≠ 0 := by
      rintro rfl
      exact small (Nat.zero_le 52)
    calc binade * (denominator * twoTo shift) = denominator * twoTo (52 + shift) := by
          rw [Nat.mul_left_comm, binade_mul_twoTo]
      _ ≤ denominator * quotient := Nat.mul_le_mul_left _ (leading ▸ Nat.log2_self_le nonzero)
      _ ≤ numerator := lower
  · have reached : quotient.log2 + 1 ≤ 53 + shift := by omega
    calc numerator < denominator * (quotient + 1) := upper
      _ ≤ denominator * twoTo (53 + shift) :=
          Nat.mul_le_mul_left _ (Nat.lt_of_lt_of_le Nat.lt_log2_self (Nat.pow_le_pow_right Nat.two_pos reached))
      _ = 2 * binade * (denominator * twoTo shift) := by rw [Nat.mul_left_comm, two_mul_binade_mul_twoTo]

/-- A quotient that has a full significand at a shift is beyond all ranks with a smaller shift. -/
private theorem middle_lt {rank shift : Nat} (positive : 0 < denominator) (low : rank < shift * binade + binade)
    (reached : binade * (denominator * twoTo shift) ≤ numerator) :
    (unitsAt rank + unitsAt (rank + 1)) * denominator < 2 * numerator := by
  have first : unitsAt (rank + 1) ≤ binade * twoTo shift := by
    rw [← unitsAt_shifted (.inr (Nat.le_refl binade)) (by decide)]
    exact unitsAt_le low
  have neighbour : unitsAt rank < unitsAt (rank + 1) := unitsAt_lt (Nat.lt_succ_self rank)
  calc (unitsAt rank + unitsAt (rank + 1)) * denominator < 2 * (binade * twoTo shift) * denominator :=
        Nat.mul_lt_mul_of_pos_right (by omega) positive
    _ = 2 * (binade * (denominator * twoTo shift)) := by ac_rfl
    _ ≤ 2 * numerator := Nat.mul_le_mul_left 2 reached

/-- A quotient that has only a significand's room at a shift is below all ranks with a larger shift. -/
private theorem lt_middle {rank shift : Nat} (high : shift * binade + 2 * binade ≤ rank)
    (below : numerator < 2 * binade * (denominator * twoTo shift)) :
    2 * numerator < (unitsAt rank + unitsAt (rank + 1)) * denominator := by
  have last : 2 * binade * twoTo shift ≤ unitsAt rank := by
    rw [← unitsAt_shifted (.inr (by decide)) (Nat.le_refl (2 * binade))]
    exact unitsAt_le high
  have neighbour : unitsAt rank < unitsAt (rank + 1) := unitsAt_lt (Nat.lt_succ_self rank)
  calc 2 * numerator < 2 * (2 * binade * (denominator * twoTo shift)) := Nat.mul_lt_mul_of_pos_left below Nat.two_pos
    _ = 2 * (2 * binade * twoTo shift) * denominator := by ac_rfl
    _ ≤ (unitsAt rank + unitsAt (rank + 1)) * denominator := Nat.mul_le_mul_right denominator (by omega)

/-- A quotient is rounded to a rank or below exactly if it lies before the point halfway to the next one, or at that
point and the rank is even. -/
theorem nearestRank_le_iff {rank : Nat} (positive : 0 < denominator) :
    nearestRank numerator denominator ≤ rank ↔
      2 * numerator < (unitsAt rank + unitsAt (rank + 1)) * denominator ∨
        2 * numerator = (unitsAt rank + unitsAt (rank + 1)) * denominator ∧ rank % 2 = 0 := by
  have bounds := shift_bounds numerator positive
  unfold nearestRank
  dsimp only at *
  generalize (numerator / denominator).log2 - 52 = shift at *
  obtain ⟨full, below⟩ := bounds
  have coarse : 0 < denominator * twoTo shift := Nat.mul_pos positive (twoTo_pos shift)
  by_cases low : shift ≠ 0 ∧ rank < shift * binade + binade
  · have reached := full.resolve_left low.1
    have rounded := le_halfEven_of_le coarse reached
    have passed := middle_lt positive low.2 reached
    exact iff_of_false (by omega) (by omega)
  by_cases high : shift * binade + 2 * binade ≤ rank
  · have rounded := halfEven_le_of_le coarse (Nat.le_of_lt below)
    exact iff_of_true (by omega) (.inl (lt_middle high below))
  -- Among the ranks that are left, neighbours are one step of the significand apart.
  have inside : shift * binade ≤ rank := by
    by_cases none : shift = 0
    · rw [none, Nat.zero_mul]
      exact Nat.zero_le rank
    · omega
  obtain ⟨significand, rfl⟩ := Nat.exists_eq_add_of_le inside
  have placed : Placed (shift * binade + significand) shift significand := ⟨rfl, by omega, by omega⟩
  have parity : (shift * binade + significand) % 2 = significand % 2 := by
    unfold binade
    omega
  have middle : (unitsAt (shift * binade + significand) + unitsAt (shift * binade + significand + 1)) * denominator =
      (2 * significand + 1) * (denominator * twoTo shift) := by
    have sides : significand + (significand + 1) = 2 * significand + 1 := by omega
    rw [placed.unitsAt, placed.unitsAt_succ, ← Nat.add_mul, sides, Nat.mul_assoc, Nat.mul_comm denominator]
  rw [Nat.add_le_add_iff_left, halfEven_le_iff coarse, middle, parity]

theorem nearestRank_mono {otherNumerator otherDenominator : Nat} (positive : 0 < denominator)
    (otherPositive : 0 < otherDenominator) (le : numerator * otherDenominator ≤ otherNumerator * denominator) :
    nearestRank numerator denominator ≤ nearestRank otherNumerator otherDenominator := by
  have rounded := (nearestRank_le_iff otherPositive).mp (Nat.le_refl (nearestRank otherNumerator otherDenominator))
  generalize nearestRank otherNumerator otherDenominator = rank at *
  rw [nearestRank_le_iff positive]
  generalize unitsAt rank + unitsAt (rank + 1) = middle at *
  have turned : middle * denominator * otherDenominator = middle * otherDenominator * denominator :=
    Nat.mul_right_comm _ _ _
  rcases rounded with before | ⟨at_, even⟩
  · left
    refine Nat.lt_of_mul_lt_mul_right (a := otherDenominator) ?_
    have scaled := Nat.mul_lt_mul_of_pos_right before positive
    rw [turned, Nat.mul_assoc]
    rw [Nat.mul_assoc] at scaled
    omega
  · have scaled : 2 * numerator ≤ middle * denominator := by
      refine Nat.le_of_mul_le_mul_right ?_ otherPositive
      rw [turned, ← at_, Nat.mul_assoc, Nat.mul_assoc]
      exact Nat.mul_le_mul_left 2 le
    rcases Nat.lt_or_eq_of_le scaled with short | same
    · exact .inl short
    · exact .inr ⟨same, even⟩

/-- Seventeen digits are more than enough to tell a magnitude from its neighbours. -/
theorem nearestRank_of_close {rank : Nat} (positive : 0 < denominator)
    (above : 20000000000000000 * numerator ≤ 20000000000000001 * (unitsAt rank * denominator))
    (below : 19999999999999999 * (unitsAt rank * denominator) ≤ 20000000000000000 * numerator) :
    nearestRank numerator denominator = rank := by
  have gap : ∀ other, unitsAt (other + 1) * denominator + 10000000000000000 * (unitsAt other * denominator) <
      10000000000000000 * (unitsAt (other + 1) * denominator) := by
    intro other
    have scaled := Nat.mul_lt_mul_of_pos_right (unitsAt_gap other) positive
    rw [Nat.add_mul, Nat.mul_assoc, Nat.mul_assoc] at scaled
    exact scaled
  apply Nat.le_antisymm
  · refine (nearestRank_le_iff positive).mpr (.inl ?_)
    have spread := gap rank
    rw [Nat.add_mul]
    omega
  · cases rank with
    | zero => exact Nat.zero_le _
    | succ before =>
      refine Nat.lt_of_not_le fun rounded => ?_
      have middle := (nearestRank_le_iff positive).mp rounded
      have spread := gap before
      rw [Nat.add_mul] at middle
      omega

end Nearest

end ReportEngine.Double
