import ReportEngine.Double.Arithmetic
import ReportEngine.Proofs.NearestDoubles

/-! Rounding changes nothing where there is nothing to round. A magnitude keeps its rank through any
quotient that equals it, so the operations with a neutral right operand give back the left one. -/

namespace ReportEngine.Double

/-- The rank nearest to a magnitude is its own, whatever quotient stands for it. -/
theorem nearestRank_unitsAt (rank : Nat) {scale : Nat} (positive : 0 < scale) :
    nearestRank (unitsAt rank * scale) scale = rank :=
  nearestRank_of_close positive (Nat.mul_le_mul_right _ (by decide)) (Nat.mul_le_mul_right _ (by decide))

theorem nearest_unitsAt (negative : Bool) (rank : Fin 0x7FF0000000000000) {scale : Nat} (positive : 0 < scale) :
    nearest negative (unitsAt rank * scale) scale = finite negative rank := by
  rw [nearest, nearestRank_unitsAt _ positive, ofRank, dif_pos rank.isLt]

private def oneRank : Fin 0x7FF0000000000000 := ⟨0x3FF0000000000000, by decide⟩

private theorem unitsAt_oneRank : unitsAt oneRank = one := by decide +kernel

private theorem ofInt_one : ofInt 1 = finite false oneRank := by
  have rounded := nearest_unitsAt false oneRank Nat.one_pos
  rw [Nat.mul_one, unitsAt_oneRank] at rounded
  have positive : decide ((1 : Int) < 0) = false := rfl
  simp only [ofInt, ofRatio, positive, Int.natAbs_one, Nat.one_mul]
  exact rounded

/-- A sum with a negative zero is the other operand, whichever sign that has. -/
private theorem ofSum_signed (negative : Bool) (rank : Fin 0x7FF0000000000000) :
    ofSum negative (signed negative rank) = finite negative rank := by
  by_cases zero : rank.val = 0
  · have same : rank = 0 := Fin.ext zero
    subst same
    cases negative <;> rfl
  · have units : unitsAt rank ≠ 0 := fun none => zero (unitsAt_eq_zero.mp none)
    have rounded := nearest_unitsAt negative rank Nat.one_pos
    rw [Nat.mul_one] at rounded
    have nonzero : signed negative rank ≠ 0 := by
      cases negative <;> simp only [signed, if_true, if_false, Bool.false_eq_true] <;> omega
    have sign : decide (signed negative rank < 0) = negative := by
      cases negative <;> simp only [signed, if_true, if_false, Bool.false_eq_true, decide_eq_true_eq,
        decide_eq_false_iff_not] <;> omega
    have size : (signed negative rank).natAbs = unitsAt rank := by
      cases negative <;> simp only [signed, if_true, if_false, Bool.false_eq_true] <;> omega
    rw [ofSum, if_neg nonzero, sign, size, rounded]

theorem sub_zero (d : Double) : d.sub zero = d := by
  cases d with
  | nan | infinite _ => rfl
  | finite negative rank =>
    have sum : (finite negative rank).sub zero = ofSum (negative && true) (signed negative rank + signed true 0) := rfl
    have nothing : signed true 0 = 0 := by decide
    rw [sum, nothing, Int.add_zero, Bool.and_true, ofSum_signed]

theorem mul_one (d : Double) : d.mul (ofInt 1) = d := by
  rw [ofInt_one]
  cases d with
  | nan => rfl
  | infinite negative => cases negative <;> rfl
  | finite negative rank =>
    simp only [mul, unitsAt_oneRank]
    rw [nearest_unitsAt _ _ one_pos, Bool.bne_false]

theorem div_one (d : Double) : d.div (ofInt 1) = d := by
  rw [ofInt_one]
  cases d with
  | nan => rfl
  | infinite negative => cases negative <;> rfl
  | finite negative rank =>
    have nonzero : (oneRank.val == 0) = false := by decide
    simp only [div, nonzero, unitsAt_oneRank]
    rw [if_neg Bool.false_ne_true, nearest_unitsAt _ _ one_pos, Bool.bne_false]

end ReportEngine.Double
