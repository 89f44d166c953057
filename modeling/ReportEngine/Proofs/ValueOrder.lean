import ReportEngine.Proofs.ShortestDoubles
import ReportEngine.Value.Order

/-! How far values of all kinds stand in one order. Numbers compare as exact numbers on every route but one: a decimal
is compared with an infinity as a double, and equals the infinity where it has become one. -/

namespace ReportEngine

theorem DateTime.compare_swap (left right : DateTime) : right.compare left = (left.compare right).swap := by
  unfold DateTime.compare
  exact Std.OrientedCmp.eq_swap

namespace Decimal

theorem compare_swap (left right : Decimal) : right.compare left = (left.compare right).swap := by
  rw [compare_eq_cmp, compare_eq_cmp, cmp_swap]

end Decimal

namespace Double

theorem compare_swap (left right : Double) : right.compare left = (left.compare right).map Ordering.swap := by
  unfold compare
  cases left.units? with
  | none => cases right.units? <;> rfl
  | some a =>
    cases right.units? with
    | none => rfl
    | some b => exact congrArg some Std.OrientedCmp.eq_swap

theorem compare_self_infinite (negative : Bool) : (infinite negative).compare (infinite negative) = some .eq := by
  unfold compare units?
  exact congrArg some Std.ReflOrd.compare_self

/-- An infinity is equal to itself alone, and beyond all others on its side. -/
theorem compare_infinite {left : Double} {negative : Bool} {order : Ordering}
    (compared : left.compare (infinite negative) = some order) :
    left = infinite negative ∧ order = .eq ∨ left ≠ infinite negative ∧ order = if negative then .gt else .lt := by
  unfold compare units? at compared
  cases left with
  | nan => cases compared
  | infinite other =>
    have positive : 0 < unitsAt infinityRank := unitsAt_strictMono (show 0 < infinityRank by decide)
    generalize unitsAt infinityRank = last at *
    have order := Option.some.inj compared
    cases other with
    | false =>
      cases negative with
      | false => exact .inl ⟨rfl, order ▸ compare_eq_iff_eq.mpr rfl⟩
      | true => exact .inr ⟨nofun, order ▸ compare_gt_iff_gt.mpr (show -(last : ℤ) < last by omega)⟩
    | true =>
      cases negative with
      | false => exact .inr ⟨nofun, order ▸ compare_lt_iff_lt.mpr (show -(last : ℤ) < last by omega)⟩
      | true => exact .inl ⟨rfl, order ▸ compare_eq_iff_eq.mpr rfl⟩
  | finite other rank =>
    have below : unitsAt rank < unitsAt infinityRank := unitsAt_strictMono rank.isLt
    generalize unitsAt infinityRank = last at *
    have order := Option.some.inj compared
    have within : -(last : ℤ) < withSign (fun rank => (unitsAt rank : ℤ)) other rank ∧
        withSign (fun rank => (unitsAt rank : ℤ)) other rank < last := by
      cases other <;> constructor <;> simp only [withSign, if_true, if_false, Bool.false_eq_true] <;> omega
    refine .inr ⟨nofun, ?_⟩
    cases negative with
    | false => exact order ▸ compare_lt_iff_lt.mpr within.2
    | true => exact order ▸ compare_gt_iff_gt.mpr within.1

theorem nearestRank_whole_lt {n : Nat} (small : n ≤ 0x80000000) : nearestRank (n * one) 1 < 0x7FF0000000000000 :=
  calc nearestRank (n * one) 1 ≤ nearestRank (0x80000000 * one) 1 :=
        nearestRank_mono Nat.one_pos Nat.one_pos (Nat.mul_le_mul_right 1 (Nat.mul_le_mul_right one small))
    _ < 0x7FF0000000000000 := by decide +kernel

/-- No 32-bit integer is large enough to become an infinity. -/
theorem ofInt_ne_infinite {n : Int} (small : n.natAbs ≤ 0x80000000) (negative : Bool) : ofInt n ≠ infinite negative := by
  rw [ofInt, ofRatio, nearest, ofRank, dif_pos (nearestRank_whole_lt small)]
  intro same
  cases same

end Double

namespace Value

variable {a b : Value}

section Line

/-- Where the empty value and the infinities stand, around all others. -/
def level : Value → ℤ
  | empty => -2
  | double (.infinite negative) => if negative then -1 else 1
  | _ => 0

/-- The exact number that a value stands for; of a double its shortest decimal. -/
def size : Value → ℚ
  | boolean b => if b then 1 else 0
  | int32 n => n.toInt
  | double (.finite negative rank) => Double.withSign Double.shortestSize negative rank
  | decimal d => d.toRat
  | dateTime t => t.ordinal
  | _ => 0

def spelling : Value → String
  | string text => text
  | _ => ""

/-- One line for all values, also for those that do not compare. -/
def lineUp : Value → Value → Ordering :=
  compareLex (compareOn level) (compareLex (compareOn size) (compareOn spelling))

instance : Std.TransCmp lineUp := inferInstanceAs (Std.TransCmp (compareLex _ _))

private theorem lineUp_eq (a b : Value) :
    lineUp a b = (Ord.compare a.level b.level).then
      ((Ord.compare a.size b.size).then (Ord.compare a.spelling b.spelling)) := rfl

theorem lineUp_of_level (lower : a.level < b.level) : lineUp a b = .lt := by
  rw [lineUp_eq, compare_lt_iff_lt.mpr lower]
  rfl

theorem lineUp_of_size (level : a.level = b.level) (spelled : a.spelling = b.spelling) :
    lineUp a b = cmp a.size b.size := by
  rw [lineUp_eq, level, spelled, compare_eq_iff_eq.mpr rfl, Std.ReflOrd.compare_self, Ordering.then_eq, cmp_eq_compare]
  rfl

theorem lineUp_of_spelling (level : a.level = b.level) (size : a.size = b.size) :
    lineUp a b = Ord.compare a.spelling b.spelling := by
  rw [lineUp_eq, level, size, compare_eq_iff_eq.mpr rfl, compare_eq_iff_eq.mpr rfl]
  rfl

end Line

section Numbers

/-- A finite double becomes its shortest decimal. -/
private theorem toDecimal_finite (negative : Bool) (rank : Fin 0x7FF0000000000000) :
    ∃ d, (double (.finite negative rank)).toDecimal = .ok d ∧
      d.toRat = Double.withSign Double.shortestSize negative rank := by
  simp only [toDecimal, Decimal.ofDouble?, Double.withSign, Double.shortestSize]
  generalize Double.shortestDigits rank = shortest
  obtain ⟨digits, scale⟩ := shortest
  refine ⟨_, rfl, ?_⟩
  cases negative with
  | false => exact congrArg (· * (10 : ℚ) ^ (-(scale : ℤ))) (Int.cast_natCast digits)
  | true =>
    calc ((-(digits : ℤ) : ℤ) : ℚ) * 10 ^ (-(scale : ℤ)) = -(digits : ℚ) * 10 ^ (-(scale : ℤ)) := by
          rw [Int.cast_neg, Int.cast_natCast]
      _ = -(digits * 10 ^ (-(scale : ℤ))) := neg_mul _ _

/-- A number has a decimal of its size, unless it is none or infinite. -/
theorem numeric_cases (numeric : a.kind.isNumeric = true) :
    (∃ d, a.toDecimal = .ok d ∧ d.toRat = a.size ∧ a.level = 0) ∨ a = double .nan ∨
      ∃ negative, a = double (.infinite negative) := by
  cases a with
  | int32 n => exact .inl ⟨_, rfl, Decimal.toRat_ofInt n.toInt, rfl⟩
  | double x =>
    cases x with
    | nan => exact .inr (.inl rfl)
    | infinite negative => exact .inr (.inr ⟨negative, rfl⟩)
    | finite negative rank =>
      obtain ⟨d, found, size⟩ := toDecimal_finite negative rank
      exact .inl ⟨d, found, size, rfl⟩
  | decimal d => exact .inl ⟨d, rfl, rfl, rfl⟩
  | empty | boolean _ | string _ | dateTime _ => cases numeric

private theorem empty_lt_level (filled : a ≠ empty) : empty.level < a.level := by
  have below : (-2 : ℤ) < 0 := by decide
  cases a with
  | empty => exact absurd rfl filled
  | double x =>
    cases x with
    | infinite negative => cases negative <;> decide
    | _ => exact below
  | _ => exact below

private theorem level_of_apart {negative : Bool} (numeric : a.kind.isNumeric = true)
    (apart : a ≠ double (.infinite negative)) : a.level = 0 ∨ a.level = if negative then 1 else -1 := by
  rcases numeric_cases numeric with ⟨_, -, -, level⟩ | rfl | ⟨other, rfl⟩
  · exact .inl level
  · exact .inl rfl
  · right
    cases negative <;> cases other <;> first | rfl | exact absurd rfl apart

/-- An infinity stands beyond all other numbers on its side. -/
private theorem lineUp_infinity {negative : Bool} (numeric : a.kind.isNumeric = true)
    (apart : a ≠ double (.infinite negative)) :
    lineUp a (double (.infinite negative)) = if negative then .gt else .lt := by
  have inside := level_of_apart numeric apart
  cases negative with
  | false =>
    refine lineUp_of_level ?_
    rcases inside with level | level <;> rw [level] <;> decide
  | true =>
    refine Std.OrientedCmp.gt_of_lt (lineUp_of_level ?_)
    rcases inside with level | level <;> rw [level] <;> decide

private theorem spelling_of_numeric (numeric : a.kind.isNumeric = true) : a.spelling = "" := by
  cases a with
  | string _ => cases numeric
  | _ => rfl

theorem compareNumbers_swap (a b : Value) : compareNumbers b a = (compareNumbers a b).map Ordering.swap := by
  unfold compareNumbers
  cases a.toDecimal with
  | ok d =>
    cases b.toDecimal with
    | ok e => exact congrArg some (Decimal.compare_swap d e)
    | error _ => cases a.toDouble <;> cases b.toDouble <;> first | rfl | exact Double.compare_swap _ _
  | error _ =>
    cases b.toDecimal <;> cases a.toDouble <;> cases b.toDouble <;> first | rfl | exact Double.compare_swap _ _

theorem compareNumbers_decimals {d e : Decimal} (left : a.toDecimal = .ok d) (right : b.toDecimal = .ok e) :
    compareNumbers a b = some (cmp d.toRat e.toRat) := by
  rw [compareNumbers, left, right, ← Decimal.compare_eq_cmp]

theorem compareNumbers_doubles {x y : Double} {error : ExprError} (none : b.toDecimal = .error error)
    (left : a.toDouble = .ok x) (right : b.toDouble = .ok y) : compareNumbers a b = x.compare y := by
  rw [compareNumbers, none, left, right]
  cases a.toDecimal <;> rfl

/-- Numbers of one kind compare as those of different kinds do. -/
theorem compare_numbers (left : a.kind.isNumeric = true) (right : b.kind.isNumeric = true) :
    a.compare b = compareNumbers a b := by
  cases a with
  | int32 m =>
    cases b with
    | int32 n =>
      rw [compareNumbers_decimals rfl rfl, Decimal.toRat_ofInt, Decimal.toRat_ofInt, Int.cast_strictMono.cmp_map_eq,
        cmp_eq_compare]
      rfl
    | double _ | decimal _ => rfl
    | empty | boolean _ | string _ | dateTime _ => cases right
  | double x =>
    cases b with
    | int32 _ | decimal _ => rfl
    | double y =>
      cases x with
      | nan | infinite _ => rfl
      | finite negative rank =>
        cases y with
        | nan =>
          have asDoubles : (double (.finite negative rank)).compareNumbers (double .nan) = _ :=
            compareNumbers_doubles rfl rfl rfl
          exact asDoubles.symm
        | infinite other =>
          have asDoubles : (double (.finite negative rank)).compareNumbers (double (.infinite other)) = _ :=
            compareNumbers_doubles rfl rfl rfl
          exact asDoubles.symm
        | finite other lower =>
          obtain ⟨d, left, leftSize⟩ := toDecimal_finite negative rank
          obtain ⟨e, right, rightSize⟩ := toDecimal_finite other lower
          rw [compareNumbers_decimals left right, leftSize, rightSize]
          exact Double.compare_finite negative other rank lower
    | empty | boolean _ | string _ | dateTime _ => cases right
  | decimal d =>
    cases b with
    | int32 _ | double _ | decimal _ => rfl
    | empty | boolean _ | string _ | dateTime _ => cases right
  | empty | boolean _ | string _ | dateTime _ => cases left

end Numbers

theorem compare_swap (a b : Value) : b.compare a = (a.compare b).map Ordering.swap := by
  by_cases numbers : a.kind.isNumeric = true ∧ b.kind.isNumeric = true
  · rw [compare_numbers numbers.1 numbers.2, compare_numbers numbers.2 numbers.1, compareNumbers_swap]
  · cases a with
    | boolean p =>
      cases b with
      | boolean q => exact congrArg some Std.OrientedCmp.eq_swap
      | _ => rfl
    | string s =>
      cases b with
      | string t => exact congrArg some Std.OrientedCmp.eq_swap
      | _ => rfl
    | dateTime t =>
      cases b with
      | dateTime u => exact congrArg some (DateTime.compare_swap t u)
      | _ => rfl
    | empty => cases b <;> rfl
    | int32 _ | double _ | decimal _ =>
      cases b with
      | int32 _ | double _ | decimal _ => exact absurd ⟨rfl, rfl⟩ numbers
      | _ => rfl

/-- A decimal and the infinity that it becomes as a double. -/
def Blurred (a b : Value) : Prop :=
  ∃ d negative, d.toDouble = .infinite negative ∧
    (a = decimal d ∧ b = double (.infinite negative) ∨ a = double (.infinite negative) ∧ b = decimal d)

section Blurs

theorem Blurred.symm (blurred : Blurred a b) : Blurred b a := by
  obtain ⟨d, negative, becomes, sides⟩ := blurred
  exact ⟨d, negative, becomes, sides.symm.imp And.symm And.symm⟩

/-- Numbers compare with those that have no decimal as doubles. -/
private theorem compare_as_doubles {y : Double} {error : ExprError} (numeric : a.kind.isNumeric = true)
    (none : (double y).toDecimal = .error error) :
    ∃ x, a.toDouble = .ok x ∧ a.compare (double y) = x.compare y := by
  obtain ⟨x, left⟩ : ∃ x, a.toDouble = .ok x := by
    cases a with
    | int32 _ | double _ | decimal _ => exact ⟨_, rfl⟩
    | empty | boolean _ | string _ | dateTime _ => cases numeric
  exact ⟨x, left, (compare_numbers numeric rfl).trans (compareNumbers_doubles none left rfl)⟩

theorem Blurred.compare_eq (blurred : Blurred a b) : a.compare b = some .eq := by
  have same : ∀ {d : Decimal} {negative : Bool}, d.toDouble = .infinite negative →
      (decimal d).compare (double (.infinite negative)) = some .eq := by
    intro d negative becomes
    obtain ⟨x, left, compared⟩ := compare_as_doubles (a := decimal d) (y := .infinite negative) rfl rfl
    cases left
    rw [compared, becomes, Double.compare_self_infinite]
  obtain ⟨d, negative, becomes, ⟨rfl, rfl⟩ | ⟨rfl, rfl⟩⟩ := blurred
  · exact same becomes
  · rw [compare_swap, same becomes]
    rfl

private theorem compare_nan (numeric : a.kind.isNumeric = true) : a.compare (double .nan) = none := by
  obtain ⟨x, -, compared⟩ := compare_as_doubles (a := a) (y := .nan) numeric rfl
  rw [compared, Double.compare]
  cases x.units? <;> rfl

private theorem infinite_of_toDouble {negative : Bool} (numeric : a.kind.isNumeric = true)
    (becomes : a.toDouble = .ok (.infinite negative)) :
    a = double (.infinite negative) ∨ Blurred a (double (.infinite negative)) := by
  cases a with
  | int32 n =>
    have small : n.toInt.natAbs ≤ 0x80000000 := by
      have lower := n.le_toInt
      have upper := n.toInt_lt
      omega
    exact absurd (Except.ok.inj becomes) (Double.ofInt_ne_infinite small negative)
  | double x => exact .inl (congrArg double (Except.ok.inj becomes))
  | decimal d => exact .inr ⟨d, negative, Except.ok.inj becomes, .inl ⟨rfl, rfl⟩⟩
  | empty | boolean _ | string _ | dateTime _ => cases numeric

/-- A number and an infinity stand in line, unless the number is a decimal that becomes the infinity. -/
private theorem compare_infinity {negative : Bool} {order : Ordering} (numeric : a.kind.isNumeric = true)
    (compared : a.compare (double (.infinite negative)) = some order) (clear : ¬Blurred a (double (.infinite negative))) :
    order = lineUp a (double (.infinite negative)) := by
  obtain ⟨x, left, asDoubles⟩ := compare_as_doubles (a := a) (y := .infinite negative) numeric rfl
  rw [asDoubles] at compared
  rcases Double.compare_infinite compared with ⟨rfl, rfl⟩ | ⟨other, rfl⟩
  · rcases infinite_of_toDouble numeric left with rfl | blurred
    · exact Std.ReflCmp.compare_self.symm
    · exact absurd blurred clear
  · have apart : a ≠ double (.infinite negative) := by
      rintro rfl
      exact other (Except.ok.inj left).symm
    exact (lineUp_infinity numeric apart).symm

private theorem eq_lineUp_of_swap {order : Ordering} (swapped : order.swap = lineUp b a) : order = lineUp a b := by
  have turned : lineUp a b = (lineUp b a).swap := Std.OrientedCmp.eq_swap
  rw [turned, ← swapped, Ordering.swap_swap]

private theorem compare_numeric {order : Ordering} (left : a.kind.isNumeric = true) (right : b.kind.isNumeric = true)
    (compared : a.compare b = some order) (clear : ¬Blurred a b) : order = lineUp a b := by
  have swapped : b.compare a = some order.swap := by
    rw [compare_swap a b, compared]
    rfl
  rcases numeric_cases left with ⟨d, leftFound, leftSize, leftLevel⟩ | rfl | ⟨negative, rfl⟩
  · rcases numeric_cases right with ⟨e, rightFound, rightSize, rightLevel⟩ | rfl | ⟨negative, rfl⟩
    · rw [compare_numbers left right, compareNumbers_decimals leftFound rightFound, leftSize, rightSize] at compared
      have spelled : a.spelling = b.spelling := (spelling_of_numeric left).trans (spelling_of_numeric right).symm
      rw [lineUp_of_size (leftLevel.trans rightLevel.symm) spelled]
      exact (Option.some.inj compared).symm
    · rw [compare_nan left] at compared
      cases compared
    · exact compare_infinity left compared clear
  · rw [compare_nan right] at swapped
    cases swapped
  · exact eq_lineUp_of_swap (compare_infinity right swapped fun blurred => clear blurred.symm)

private theorem compare_empty {order : Ordering} (compared : empty.compare a = some order) : order = lineUp empty a := by
  by_cases filled : a = empty
  · subst filled
    cases compared
    exact Std.ReflCmp.compare_self.symm
  · rw [lineUp_of_level (empty_lt_level filled)]
    cases a with
    | empty => exact absurd rfl filled
    | _ => exact (Option.some.inj compared).symm

/-- Values that compare stand in line, unless they are blurred. -/
theorem compare_eq_lineUp {order : Ordering} (compared : a.compare b = some order) (clear : ¬Blurred a b) :
    order = lineUp a b := by
  by_cases numbers : a.kind.isNumeric = true ∧ b.kind.isNumeric = true
  · exact compare_numeric numbers.1 numbers.2 compared clear
  by_cases leftEmpty : a = empty
  · subst leftEmpty
    exact compare_empty compared
  by_cases rightEmpty : b = empty
  · subst rightEmpty
    refine eq_lineUp_of_swap (compare_empty ?_)
    rw [compare_swap a empty, compared]
    rfl
  cases a with
  | empty => exact absurd rfl leftEmpty
  | boolean p =>
    cases b with
    | boolean q =>
      cases compared
      have line : lineUp (boolean p) (boolean q) = _ := lineUp_of_size rfl rfl
      rw [line]
      cases p <;> cases q <;> decide
    | empty => exact absurd rfl rightEmpty
    | _ => cases compared
  | string s =>
    cases b with
    | string t =>
      cases compared
      have line : lineUp (string s) (string t) = _ := lineUp_of_spelling rfl rfl
      exact line.symm
    | empty => exact absurd rfl rightEmpty
    | _ => cases compared
  | dateTime t =>
    cases b with
    | dateTime u =>
      cases compared
      have line : lineUp (dateTime t) (dateTime u) = _ := lineUp_of_size rfl rfl
      rw [line, size, size, Int.cast_strictMono.cmp_map_eq, cmp_eq_compare]
      rfl
    | empty => exact absurd rfl rightEmpty
    | _ => cases compared
  | int32 _ | double _ | decimal _ =>
    cases b with
    | int32 _ | double _ | decimal _ => exact absurd ⟨rfl, rfl⟩ numbers
    | empty => exact absurd rfl rightEmpty
    | _ => cases compared

end Blurs

/-- What an order owes a triple: no step up leads down, and a step that is strict leads strictly up. -/
def Consistent (a b c : Value) : Prop :=
  ∀ x y z, a.compare b = some x → b.compare c = some y → a.compare c = some z →
    x.isLE = true → y.isLE = true → z.isLE = true ∧ (x = .lt ∨ y = .lt → z = .lt)

/-- Two values are blurred, and a third compares with both, but differently. -/
def ToldApart (a b c : Value) : Prop :=
  Blurred a b ∧ ∃ x y, c.compare a = some x ∧ c.compare b = some y ∧ x ≠ y

section Triples

variable {c : Value}

private theorem Blurred.same_of_not_toldApart {x y : Ordering} (blurred : Blurred a b) (clear : ¬ToldApart a b c)
    (ca : c.compare a = some x) (cb : c.compare b = some y) : x = y := by
  by_contra differ
  exact clear ⟨blurred, x, y, ca, cb, differ⟩

private theorem consistent_of_not_toldApart (first : ¬ToldApart a b c) (second : ¬ToldApart b c a)
    (third : ¬ToldApart a c b) : Consistent a b c := by
  intro x y z ab bc ac up upAgain
  have ba : b.compare a = some x.swap := by
    rw [compare_swap a b, ab]
    rfl
  have cb : c.compare b = some y.swap := by
    rw [compare_swap b c, bc]
    rfl
  have ca : c.compare a = some z.swap := by
    rw [compare_swap a c, ac]
    rfl
  by_cases firstBlurred : Blurred a b
  · obtain rfl : x = .eq := Option.some.inj (ab.symm.trans firstBlurred.compare_eq)
    obtain rfl : z = y := Ordering.swap_inj.mp (firstBlurred.same_of_not_toldApart first ca cb)
    exact ⟨upAgain, fun strict => strict.resolve_left nofun⟩
  by_cases secondBlurred : Blurred b c
  · obtain rfl : y = .eq := Option.some.inj (bc.symm.trans secondBlurred.compare_eq)
    obtain rfl : x = z := secondBlurred.same_of_not_toldApart second ab ac
    exact ⟨up, fun strict => strict.resolve_right nofun⟩
  by_cases thirdBlurred : Blurred a c
  · obtain rfl : z = .eq := Option.some.inj (ac.symm.trans thirdBlurred.compare_eq)
    obtain rfl : x.swap = y := thirdBlurred.same_of_not_toldApart third ba bc
    cases x with
    | eq => exact ⟨rfl, fun strict => strict.elim nofun nofun⟩
    | lt => cases upAgain
    | gt => cases up
  rw [compare_eq_lineUp ab firstBlurred] at up ⊢
  rw [compare_eq_lineUp bc secondBlurred] at upAgain ⊢
  rw [compare_eq_lineUp ac thirdBlurred]
  refine ⟨Std.TransCmp.isLE_trans up upAgain, ?_⟩
  rintro (strict | strict)
  · exact Std.TransCmp.lt_of_lt_of_isLE strict upAgain
  · exact Std.TransCmp.lt_of_isLE_of_lt up strict

private theorem not_consistent_of_toldApart (apart : ToldApart a b c) : ¬(Consistent c a b ∧ Consistent c b a) := by
  rintro ⟨left, right⟩
  obtain ⟨blurred, x, y, ca, cb, differ⟩ := apart
  have forth := left x .eq y ca blurred.compare_eq cb
  have back := right y .eq x cb blurred.symm.compare_eq ca
  cases x with
  | lt => exact differ ((forth rfl rfl).2 (.inl rfl)).symm
  | eq =>
    cases y with
    | eq => exact differ rfl
    | lt => cases (back rfl rfl).2 (.inl rfl)
    | gt => cases (forth rfl rfl).1
  | gt =>
    cases y with
    | gt => exact differ rfl
    | lt | eq => cases (back rfl rfl).1

end Triples

/-- Comparing is mirrored on all values, and consistent on all but triples of a decimal, the infinity that it becomes as
a double, and a value that compares differently with the two. On those it is not. -/
theorem compare_consistent :
    (∀ a b : Value, b.compare a = (a.compare b).map Ordering.swap) ∧
      (∀ a b c : Value, ¬ToldApart a b c → ¬ToldApart b c a → ¬ToldApart a c b → Consistent a b c) ∧
      ∀ a b c : Value, ToldApart a b c → ¬(Consistent c a b ∧ Consistent c b a) :=
  ⟨compare_swap, fun _ _ _ => consistent_of_not_toldApart, fun _ _ _ => not_consistent_of_toldApart⟩

/-- A whole number, a decimal and an infinity are in order; two decimals beyond the doubles and an infinity are not. -/
theorem compare_consistent_mixed :
    Consistent (int32 1) (decimal ⟨15, 1⟩) (double (.infinite false)) ∧
      ¬(Consistent (decimal ⟨1, -500⟩) (decimal ⟨1, -400⟩) (double (.infinite false)) ∧
        Consistent (decimal ⟨1, -500⟩) (double (.infinite false)) (decimal ⟨1, -400⟩)) := by
  obtain ⟨_, consistent, blurs⟩ := compare_consistent
  have finite : ∀ negative, Decimal.toDouble ⟨15, 1⟩ ≠ .infinite negative := by decide +kernel
  have lower : Blurred (decimal ⟨1, -400⟩) (double (.infinite false)) := ⟨_, _, rfl, .inl ⟨rfl, rfl⟩⟩
  have higher : Blurred (decimal ⟨1, -500⟩) (double (.infinite false)) := ⟨_, _, rfl, .inl ⟨rfl, rfl⟩⟩
  refine ⟨consistent _ _ _ ?_ ?_ ?_, blurs _ _ _ ⟨lower, .gt, .eq, rfl, higher.compare_eq, nofun⟩⟩
  · rintro ⟨⟨_, _, _, ⟨⟨⟩, _⟩ | ⟨⟨⟩, _⟩⟩, _⟩
  · rintro ⟨⟨_, negative, becomes, ⟨⟨⟩, _⟩ | ⟨⟨⟩, _⟩⟩, _⟩
    exact finite negative becomes
  · rintro ⟨⟨_, _, _, ⟨⟨⟩, _⟩ | ⟨⟨⟩, _⟩⟩, _⟩

/-- Two decimals equal the same infinity, and yet the first is the greater one. -/
theorem not_consistent_beyondDoubles :
    (decimal ⟨1, -500⟩).compare (double (.infinite false)) = some .eq ∧
      (double (.infinite false)).compare (decimal ⟨1, -400⟩) = some .eq ∧
      (decimal ⟨1, -500⟩).compare (decimal ⟨1, -400⟩) = some .gt ∧
      ¬Consistent (decimal ⟨1, -500⟩) (double (.infinite false)) (decimal ⟨1, -400⟩) := by
  have lower : Blurred (decimal ⟨1, -400⟩) (double (.infinite false)) := ⟨_, _, rfl, .inl ⟨rfl, rfl⟩⟩
  have higher : Blurred (decimal ⟨1, -500⟩) (double (.infinite false)) := ⟨_, _, rfl, .inl ⟨rfl, rfl⟩⟩
  refine ⟨higher.compare_eq, lower.symm.compare_eq, rfl, fun consistent => ?_⟩
  cases (consistent .eq .eq .gt higher.compare_eq lower.symm.compare_eq rfl rfl rfl).1

end Value

end ReportEngine
