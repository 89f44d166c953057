import Mathlib.Tactic.GCongr
import Mathlib.Tactic.Ring
import ReportEngine.Double.Shortest
import ReportEngine.Proofs.ExactDecimals
import ReportEngine.Proofs.NearestDoubles

/-! The shortest digits of a double read back as the double. Some are always found, at the seventeenth digit if not
before, so greater doubles have greater decimals. -/

namespace ReportEngine.Double

open Text

theorem unitsAt_strictMono : StrictMono unitsAt := fun _ _ => unitsAt_lt

section Search

variable {rank : Nat}

theorem leadingExponent_le (nonzero : rank ≠ 0) : (10 : ℚ) ^ leadingExponent rank * one ≤ unitsAt rank := by
  have positive : 0 < unitsAt rank := Nat.pos_of_ne_zero fun zero => nonzero (unitsAt_eq_zero.mp zero)
  unfold leadingExponent
  dsimp only
  split
  next whole =>
    have leading := pow_length_digitsOfNat_le (Nat.div_pos whole one_pos)
    have written : 1 ≤ (digitsOfNat (unitsAt rank / one)).length := Nat.length_toDigits_pos
    generalize (digitsOfNat (unitsAt rank / one)).length = count at *
    have exponent : (count : ℤ) - 1 = (count - 1 : ℕ) := by omega
    rw [exponent, ← tenTo_cast]
    exact_mod_cast (Nat.mul_le_mul_right one leading).trans (Nat.div_mul_le_self (unitsAt rank) one)
  next fraction =>
    have leading := lt_pow_length_digitsOfNat (one / unitsAt rank)
    generalize (digitsOfNat (one / unitsAt rank)).length = count at *
    rw [Nat.div_lt_iff_lt_mul positive] at leading
    rw [zpow_neg, inv_mul_le_iff₀ (ten_zpow_pos _), ← tenTo_cast]
    exact_mod_cast leading.le

/-- The steps of a grid of seventeen digits, or of a finer one, count both sides of the point. -/
private theorem small_step {unit units : Nat} {leading exponent : ℤ} (le : (10 : ℚ) ^ leading * unit ≤ units)
    (fine : exponent + 16 ≤ leading) : 10 ^ 16 * (unit * tenTo exponent.toNat) ≤ units * tenTo (-exponent).toNat := by
  have bound : (10 : ℚ) ^ 16 * (unit * tenTo exponent.toNat) ≤ units * tenTo (-exponent).toNat :=
    calc (10 : ℚ) ^ 16 * (unit * tenTo exponent.toNat) = 10 ^ (exponent + 16) * unit * tenTo (-exponent).toNat := by
          rw [tenTo_toNat_cast, ten_zpow_add]
          ring
      _ ≤ 10 ^ leading * unit * tenTo (-exponent).toNat := by
          gcongr
          norm_num
      _ ≤ units * tenTo (-exponent).toNat := by gcongr
  exact_mod_cast bound

/-- A multiple of the step that is no further than half of it from the exact number reads back. -/
private theorem readsBack_of_near {exponent : ℤ} {digits : Nat}
    (small : 10 ^ 16 * (one * tenTo exponent.toNat) ≤ unitsAt rank * tenTo (-exponent).toNat)
    (above : 2 * (digits * (one * tenTo exponent.toNat)) ≤
      2 * (unitsAt rank * tenTo (-exponent).toNat) + one * tenTo exponent.toNat)
    (below : 2 * (unitsAt rank * tenTo (-exponent).toNat) ≤
      2 * (digits * (one * tenTo exponent.toNat)) + one * tenTo exponent.toNat) :
    readsBack rank digits exponent = true := by
  have numerator : digits * tenTo exponent.toNat * one = digits * (one * tenTo exponent.toNat) := by
    rw [Nat.mul_assoc, Nat.mul_comm one]
  rw [readsBack, beq_iff_eq, numerator]
  exact nearestRank_of_close (tenTo_pos _) (by omega) (by omega)

/-- On such a grid the nearer neighbour reads back. -/
theorem exists_pointAt? {exponent : ℤ} (fine : exponent + 16 ≤ leadingExponent rank) (nonzero : rank ≠ 0) :
    ∃ digits, pointAt? rank exponent = some digits := by
  have positive : 0 < one * tenTo exponent.toNat := Nat.mul_pos one_pos (tenTo_pos _)
  have near := fun digits => @readsBack_of_near rank exponent digits (small_step (leadingExponent_le nonzero) fine)
  unfold pointAt?
  dsimp only
  generalize unitsAt rank * tenTo (-exponent).toNat = exact at *
  generalize one * tenTo exponent.toNat = step at *
  have split := Nat.div_add_mod exact step
  have rest := Nat.mod_lt exact positive
  rw [Nat.mul_comm] at split
  split
  next down =>
    refine ⟨exact / step, List.find?_cons_of_pos (near _ ?_ ?_)⟩ <;> omega
  next up =>
    refine ⟨exact / step + 1, List.find?_cons_of_pos (near _ ?_ ?_)⟩ <;> rw [Nat.add_mul, Nat.one_mul] <;> omega

theorem readsBack_of_pointAt? {exponent : ℤ} {digits : Nat} (found : pointAt? rank exponent = some digits) :
    readsBack rank digits exponent = true := by
  unfold pointAt? at found
  have reads := List.find?_some found
  exact reads

theorem exists_shortest? (nonzero : rank ≠ 0) : ∃ found, shortest? rank = some found := by
  rw [← Option.isSome_iff_exists, Option.isSome_iff_ne_none]
  intro none
  have missed := List.findSome?_eq_none_iff.mp none 17 (List.mem_range.mpr (by decide))
  have fine : leadingExponent rank + 1 - (17 : ℕ) + 16 ≤ leadingExponent rank := by omega
  obtain ⟨digits, found⟩ := exists_pointAt? fine nonzero
  dsimp only at missed
  rw [found] at missed
  cases missed

theorem readsBack_of_shortest? {digits : Nat} {exponent : ℤ} (found : shortest? rank = some (digits, exponent)) :
    readsBack rank digits exponent = true := by
  obtain ⟨step, -, point⟩ := List.exists_of_findSome?_eq_some found
  dsimp only at point
  rw [Option.map_eq_some_iff] at point
  obtain ⟨found, point, same⟩ := point
  cases same
  exact readsBack_of_pointAt? point

end Search

theorem nearestRank_shortestDigits (rank : Nat) :
    nearestRank ((shortestDigits rank).1 * one) (tenTo (shortestDigits rank).2) = rank := by
  unfold shortestDigits
  split
  next digits exponent found =>
    have reads := readsBack_of_shortest? found
    rw [readsBack, beq_iff_eq] at reads
    exact reads
  next missed =>
    by_contra other
    have nonzero : rank ≠ 0 := by
      rintro rfl
      exact other (by decide +kernel)
    obtain ⟨_, found⟩ := exists_shortest? nonzero
    rw [missed] at found
    cases found

/-- The number that the shortest digits of a magnitude stand for. -/
def shortestSize (rank : Nat) : ℚ := (shortestDigits rank).1 * 10 ^ (-((shortestDigits rank).2 : ℤ))

theorem shortestSize_strictMono : StrictMono shortestSize := by
  intro rank other lower
  by_contra above
  have size : shortestSize other ≤ shortestSize rank := not_lt.mp above
  refine Nat.not_le.mpr lower ?_
  rw [← nearestRank_shortestDigits rank, ← nearestRank_shortestDigits other]
  refine nearestRank_mono (tenTo_pos _) (tenTo_pos _) ?_
  have digits : (shortestDigits other).1 * tenTo (shortestDigits rank).2 ≤
      (shortestDigits rank).1 * tenTo (shortestDigits other).2 := by
    unfold shortestSize at size
    rw [zpow_neg, zpow_neg, ← div_eq_mul_inv, ← div_eq_mul_inv, div_le_div_iff₀ (ten_zpow_pos _) (ten_zpow_pos _),
      ← tenTo_cast, ← tenTo_cast] at size
    exact_mod_cast size
  rw [Nat.mul_right_comm, Nat.mul_right_comm _ one]
  exact Nat.mul_le_mul_right one digits

theorem shortestSize_zero : shortestSize 0 = 0 := by
  have digits : shortestDigits 0 = (0, 0) := by decide +kernel
  rw [shortestSize, digits, Nat.cast_zero, zero_mul]

section Signs

variable {α : Type} [AddCommGroup α] {size : Nat → α}

/-- The size of a rank, with a sign. -/
def withSign (size : Nat → α) (negative : Bool) (rank : Nat) : α := if negative then -size rank else size rank

/-- Sizes continued to the other side of zero. -/
private def mirrored (size : Nat → α) : ℤ → α
  | .ofNat rank => size rank
  | .negSucc rank => -size (rank + 1)

private theorem withSign_eq_mirrored (zero : size 0 = 0) (negative : Bool) (rank : Nat) :
    withSign size negative rank = mirrored size (withSign (Nat.cast : Nat → ℤ) negative rank) := by
  cases negative with
  | false => rfl
  | true =>
    cases rank with
    | zero =>
      calc -size 0 = 0 := by rw [zero, neg_zero]
        _ = size 0 := zero.symm
    | succ rank => rfl

variable [LinearOrder α] [IsOrderedAddMonoid α]

private theorem mirrored_lt_succ (increasing : StrictMono size) (zero : size 0 = 0) (n : ℤ) :
    mirrored size n < mirrored size (n + 1) := by
  cases n with
  | ofNat rank => exact increasing (Nat.lt_succ_self rank)
  | negSucc rank =>
    cases rank with
    | zero =>
      have positive := increasing Nat.zero_lt_one
      rw [zero] at positive
      calc -size 1 < 0 := neg_neg_of_pos positive
        _ = size 0 := zero.symm
    | succ rank => exact neg_lt_neg (increasing (Nat.lt_succ_self (rank + 1)))

/-- Whatever sizes the ranks are given, it is signs and ranks that are compared. -/
private theorem cmp_withSign (increasing : StrictMono size) (zero : size 0 = 0) (negative other : Bool) (rank lower : Nat) :
    cmp (withSign size negative rank) (withSign size other lower) =
      cmp (withSign (Nat.cast : Nat → ℤ) negative rank) (withSign (Nat.cast : Nat → ℤ) other lower) := by
  have both := strictMono_int_of_lt_succ (mirrored_lt_succ increasing zero)
  rw [withSign_eq_mirrored zero, withSign_eq_mirrored zero, both.cmp_map_eq]

end Signs

/-- Doubles compare as their shortest decimals do. -/
theorem compare_finite (negative other : Bool) (rank lower : Fin 0x7FF0000000000000) :
    (finite negative rank).compare (finite other lower) =
      some (cmp (withSign shortestSize negative rank) (withSign shortestSize other lower)) := by
  have increasing : StrictMono fun rank => (unitsAt rank : ℤ) := Nat.strictMono_cast.comp unitsAt_strictMono
  have units : (finite negative rank).compare (finite other lower) =
      some (Ord.compare (withSign (fun rank => (unitsAt rank : ℤ)) negative rank)
        (withSign (fun rank => (unitsAt rank : ℤ)) other lower)) := rfl
  rw [units, ← cmp_eq_compare, cmp_withSign increasing rfl, cmp_withSign shortestSize_strictMono shortestSize_zero]

end ReportEngine.Double
