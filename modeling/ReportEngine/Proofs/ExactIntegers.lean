import ReportEngine.Proofs.KindSoundness

/-! Arithmetic on 32-bit integers, measured against all integers. Where the exact result fits, every policy
yields it; where it does not, each policy answers in its own way. A remainder always fits, but is an
overflow all the same where the quotient beside it is one. -/

namespace ReportEngine

namespace Int32

/-- An integer that 32 bits with a sign can hold. -/
def Fits (n : Int) : Prop := -0x80000000 ≤ n ∧ n < 0x80000000

instance (n : Int) : Decidable (Fits n) := inferInstanceAs (Decidable (_ ∧ _))

theorem fits_toInt (n : Int32) : Fits n.toInt := ⟨n.le_toInt, n.toInt_lt⟩

theorem ofInt?_of_fits {n : Int} (fits : Fits n) : Int32.ofInt? n = some (Int32.ofInt n) := if_pos fits

theorem ofInt?_of_not_fits {n : Int} (beyond : ¬Fits n) : Int32.ofInt? n = none := if_neg beyond

theorem toInt_ofInt_of_fits {n : Int} (fits : Fits n) : (Int32.ofInt n).toInt = n :=
  Int32.toInt_ofInt_of_le fits.1 fits.2

theorem toInt_clamp (n : Int) : (Int32.clamp n).toInt = max (-0x80000000) (min n 0x7FFFFFFF) := by
  have within : Fits (max (-0x80000000) (min n 0x7FFFFFFF)) := by
    constructor <;> omega
  exact toInt_ofInt_of_fits within

theorem toInt_bmod_of_fits {n : Int} (fits : Fits n) : n.bmod 0x100000000 = n := by
  obtain ⟨lower, upper⟩ := fits
  exact Int.bmod_eq_of_le (by omega) (by omega)

end Int32

/-- Division that drops what is left over: the remainder is smaller than the divisor and has the sign of
the dividend. -/
structure TruncatedDivision (a b quotient remainder : Int) : Prop where
  whole : remainder + b * quotient = a
  small : remainder.natAbs < b.natAbs
  signed : 0 ≤ a ∧ 0 ≤ remainder ∨ a ≤ 0 ∧ remainder ≤ 0

namespace TruncatedDivision

variable {a b quotient remainder : Int}

theorem divisor_ne_zero (division : TruncatedDivision a b quotient remainder) : b ≠ 0 := by
  rintro rfl
  exact absurd division.small (Nat.not_lt_zero _)

theorem unique (division : TruncatedDivision a b quotient remainder) :
    a.tdiv b = quotient ∧ a.tmod b = remainder := by
  have small := division.small
  rcases division.signed with ⟨positive, signed⟩ | ⟨negative, signed⟩
  · exact (Int.tdiv_tmod_unique positive division.divisor_ne_zero).mpr ⟨division.whole, signed, by omega⟩
  · exact (Int.tdiv_tmod_unique' negative division.divisor_ne_zero).mpr ⟨division.whole, by omega, signed⟩

theorem of_ne_zero (divides : b ≠ 0) : TruncatedDivision a b (a.tdiv b) (a.tmod b) := by
  rcases Int.le_total 0 a with positive | negative
  · obtain ⟨whole, signed, small⟩ := (Int.tdiv_tmod_unique positive divides).mp ⟨rfl, rfl⟩
    exact ⟨whole, by omega, .inl ⟨positive, signed⟩⟩
  · obtain ⟨whole, small, signed⟩ := (Int.tdiv_tmod_unique' negative divides).mp ⟨rfl, rfl⟩
    exact ⟨whole, by omega, .inr ⟨negative, signed⟩⟩

end TruncatedDivision

namespace OverflowPolicy

/-- What a policy makes of an exact result. Only a trap looks at whether the operation overflows. -/
def Obeys (policy : OverflowPolicy) (label : String) (exact : Int) (overflows : Prop)
    (outcome : Except ExprError Value) : Prop :=
  match policy with
  | wrap => ∃ n : Int32, outcome = .ok (.int32 n) ∧ n.toInt = exact.bmod 0x100000000
  | saturate => ∃ n : Int32, outcome = .ok (.int32 n) ∧ n.toInt = max (-0x80000000) (min exact 0x7FFFFFFF)
  | trap =>
    (overflows → outcome = .error (.overflow label .int32)) ∧
      (¬overflows → ∃ n : Int32, outcome = .ok (.int32 n) ∧ n.toInt = exact)

theorem obeys_resolve (policy : OverflowPolicy) (label : String) {exact : Int} {overflows : Prop}
    {checked : Option Int32} {wrapped : Int32} (beyond : overflows → checked = none)
    (within : ¬overflows → Int32.Fits exact ∧ checked = some (Int32.ofInt exact))
    (reduced : wrapped.toInt = exact.bmod 0x100000000) :
    policy.Obeys label exact overflows ((policy.resolve label checked wrapped (Int32.clamp exact)).map .int32) := by
  cases policy with
  | wrap => exact ⟨wrapped, rfl, reduced⟩
  | saturate => exact ⟨Int32.clamp exact, rfl, Int32.toInt_clamp exact⟩
  | trap =>
    constructor
    · intro overflows
      rw [beyond overflows]
      rfl
    · intro fitting
      obtain ⟨fits, found⟩ := within fitting
      rw [found]
      exact ⟨Int32.ofInt exact, rfl, Int32.toInt_ofInt_of_fits fits⟩

end OverflowPolicy

namespace Arithmetic

/-- The result of an operation over all integers. A division by zero has none. -/
inductive Yields : Arithmetic → Int → Int → Int → Prop where
  | add (a b : Int) : Yields add a b (a + b)
  | sub (a b : Int) : Yields sub a b (a - b)
  | mul (a b : Int) : Yields mul a b (a * b)
  | div {a b quotient remainder : Int} (division : TruncatedDivision a b quotient remainder) : Yields div a b quotient
  | mod {a b quotient remainder : Int} (division : TruncatedDivision a b quotient remainder) : Yields mod a b remainder

/-- Where an operation with a given exact result overflows. The one remainder that does is 0. -/
def Overflows (op : Arithmetic) (a b exact : Int) : Prop :=
  ¬Int32.Fits exact ∨ op = mod ∧ a = -0x80000000 ∧ b = -1

variable {op : Arithmetic} {a b : Int32}

theorem yields_iff {r : Int} (divides : ¬((op = div ∨ op = mod) ∧ b = 0)) :
    op.Yields a.toInt b.toInt r ↔ r = op.exact a.toInt b.toInt := by
  constructor
  · intro yields
    cases yields with
    | add | sub | mul => rfl
    | div division => exact division.unique.1.symm
    | mod division => exact division.unique.2.symm
  · rintro rfl
    have nonzero : op = div ∨ op = mod → b.toInt ≠ 0 := fun dividing zero =>
      divides ⟨dividing, Int32.toInt_inj.mp zero⟩
    cases op with
    | add => exact .add _ _
    | sub => exact .sub _ _
    | mul => exact .mul _ _
    | div => exact .div (.of_ne_zero (nonzero (.inl rfl)))
    | mod => exact .mod (.of_ne_zero (nonzero (.inr rfl)))

theorem toInt_wrapped (op : Arithmetic) (a b : Int32) :
    (op.wrapped a b).toInt = (op.exact a.toInt b.toInt).bmod 0x100000000 := by
  cases op with
  | add => exact Int32.toInt_add a b
  | sub => exact Int32.toInt_sub a b
  | mul => exact Int32.toInt_mul a b
  | div => exact Int32.toInt_div a b
  | mod =>
    rw [wrapped, exact, ← Int32.toInt_mod]
    exact (Int32.toInt_bmod_of_fits (Int32.fits_toInt _)).symm

/-- A quotient fits, with one exception. -/
theorem fits_tdiv_iff (divides : b ≠ 0) :
    Int32.Fits (a.toInt.tdiv b.toInt) ↔ ¬(a.toInt = -0x80000000 ∧ b.toInt = -1) := by
  have nonzero : b.toInt ≠ 0 := fun zero => divides (Int32.toInt_inj.mp zero)
  obtain ⟨lower, upper⟩ := Int32.fits_toInt a
  constructor
  · rintro ⟨_, above⟩ ⟨lowest, negated⟩
    rw [lowest, negated, Int.tdiv_neg, Int.tdiv_one] at above
    omega
  · intro other
    -- A divisor of one keeps the size of the dividend, any other halves it at least.
    by_cases unit : b.toInt.natAbs = 1
    · rcases (show b.toInt = 1 ∨ b.toInt = -1 by omega) with one | negated
      · rw [one, Int.tdiv_one]
        exact ⟨lower, upper⟩
      · rw [negated, Int.tdiv_neg, Int.tdiv_one]
        constructor <;> omega
    · have halved : a.toInt.natAbs / b.toInt.natAbs ≤ a.toInt.natAbs / 2 :=
        Nat.div_le_div_left (by omega) (by decide)
      have size : (a.toInt.tdiv b.toInt).natAbs = a.toInt.natAbs / b.toInt.natAbs := Int.natAbs_tdiv _ _
      constructor <;> omega

theorem checked_of_overflows (divides : ¬((op = div ∨ op = mod) ∧ b = 0))
    (overflows : op.Overflows a.toInt b.toInt (op.exact a.toInt b.toInt)) : op.checked a b = none := by
  cases op with
  | add | sub | mul | div =>
    obtain beyond | ⟨⟨⟩, _⟩ := overflows
    exact Int32.ofInt?_of_not_fits beyond
  | mod =>
    have nonzero : b ≠ 0 := fun zero => divides ⟨.inr rfl, zero⟩
    have exception : a.toInt = -0x80000000 ∧ b.toInt = -1 := by
      rcases overflows with beyond | ⟨_, exception⟩
      · rw [exact, ← Int32.toInt_mod] at beyond
        exact absurd (Int32.fits_toInt _) beyond
      · exact exception
    have beyond : ¬Int32.Fits (a.toInt.tdiv b.toInt) := fun fits => (fits_tdiv_iff nonzero).mp fits exception
    rw [checked, Int32.ofInt?_of_not_fits beyond]
    rfl

theorem checked_of_not_overflows (divides : ¬((op = div ∨ op = mod) ∧ b = 0))
    (fitting : ¬op.Overflows a.toInt b.toInt (op.exact a.toInt b.toInt)) :
    Int32.Fits (op.exact a.toInt b.toInt) ∧ op.checked a b = some (Int32.ofInt (op.exact a.toInt b.toInt)) := by
  obtain ⟨fits, noException⟩ := not_or.mp fitting
  have fits := Decidable.not_not.mp fits
  refine ⟨fits, ?_⟩
  cases op with
  | add | sub | mul | div => exact Int32.ofInt?_of_fits fits
  | mod =>
    have nonzero : b ≠ 0 := fun zero => divides ⟨.inr rfl, zero⟩
    have quotient : Int32.Fits (a.toInt.tdiv b.toInt) :=
      (fits_tdiv_iff nonzero).mpr fun exception => noException ⟨rfl, exception⟩
    rw [checked, Int32.ofInt?_of_fits quotient]
    exact Int32.ofInt?_of_fits fits

theorem apply_divisor_zero (policy : OverflowPolicy) (dividing : op = div ∨ op = mod) :
    op.apply policy (.int32 a) (.int32 0) = .error (.divideByZero op.name .int32) := by
  rw [apply, applyInt32, if_pos ⟨dividing, rfl⟩]
  rfl

theorem obeys_apply (policy : OverflowPolicy) (divides : ¬((op = div ∨ op = mod) ∧ b = 0)) :
    policy.Obeys op.name (op.exact a.toInt b.toInt) (op.Overflows a.toInt b.toInt (op.exact a.toInt b.toInt))
      (op.apply policy (.int32 a) (.int32 b)) := by
  rw [apply, applyInt32, if_neg divides]
  exact policy.obeys_resolve op.name (checked_of_overflows divides) (checked_of_not_overflows divides)
    (op.toInt_wrapped a b)

end Arithmetic

theorem UnaryOp.obeys_apply_negate (policy : OverflowPolicy) (n : Int32) :
    policy.Obeys UnaryOp.negate.name (-n.toInt) (¬Int32.Fits (-n.toInt)) (UnaryOp.negate.apply policy (.int32 n)) := by
  refine policy.obeys_resolve UnaryOp.negate.name Int32.ofInt?_of_not_fits ?_ (Int32.toInt_neg n)
  intro fitting
  have fits := Decidable.not_not.mp fitting
  exact ⟨fits, Int32.ofInt?_of_fits fits⟩

namespace Expr

variable {context : Context} {fields : Fields} {lhs rhs operand : Expr} {a b : Int32}

theorem value_arithmetic_int32 (op : Arithmetic) (policy : OverflowPolicy)
    (left : lhs.valueAs .int32 context fields = .ok (.int32 a))
    (right : rhs.valueAs .int32 context fields = .ok (.int32 b)) :
    (binary (.arithmetic op) .int32 policy lhs rhs).value context fields = op.apply policy (.int32 a) (.int32 b) := by
  have supported : (BinaryOp.arithmetic op).supports .int32 = true := rfl
  rw [value, eval_binary supported, Traced.bind_of_ok left, Traced.bind_of_ok right]
  rfl

theorem value_negate_int32 (policy : OverflowPolicy) (kinded : operand.kind = .int32)
    (reached : operand.valueAs .int32 context fields = .ok (.int32 a)) :
    (unary .negate policy operand).value context fields = UnaryOp.negate.apply policy (.int32 a) := by
  have supported : UnaryOp.negate.supports operand.kind = true := kinded ▸ rfl
  rw [value, eval_unary supported, kinded, Traced.bind_of_ok reached]
  rfl

/-- Nodes over 32-bit integers, measured against the results over all integers. A division by zero fails
under every policy. Apart from it there is one exact result, and the policy settles what becomes of it: it
is reduced to 32 bits, clamped to their range, or kept where it fits and an overflow otherwise. The
remainder of the lowest integer by -1 is 0, and still an overflow. -/
theorem int32_arithmetic_exact (policy : OverflowPolicy) (context : Context) (fields : Fields) :
    (∀ (op : Arithmetic) (lhs rhs : Expr) (a b : Int32),
      lhs.valueAs .int32 context fields = .ok (.int32 a) → rhs.valueAs .int32 context fields = .ok (.int32 b) →
      ((op = .div ∨ op = .mod) ∧ b = 0 →
        (binary (.arithmetic op) .int32 policy lhs rhs).value context fields =
          .error (.divideByZero op.name .int32)) ∧
      (¬((op = .div ∨ op = .mod) ∧ b = 0) →
        ∃ exact, (∀ r, op.Yields a.toInt b.toInt r ↔ r = exact) ∧
          policy.Obeys op.name exact (¬Int32.Fits exact ∨ op = .mod ∧ a.toInt = -0x80000000 ∧ b.toInt = -1)
            ((binary (.arithmetic op) .int32 policy lhs rhs).value context fields))) ∧
    ∀ (operand : Expr) (a : Int32),
      operand.kind = .int32 → operand.valueAs .int32 context fields = .ok (.int32 a) →
      policy.Obeys UnaryOp.negate.name (-a.toInt) (¬Int32.Fits (-a.toInt))
        ((unary .negate policy operand).value context fields) := by
  constructor
  · intro op lhs rhs a b left right
    rw [value_arithmetic_int32 op policy left right]
    constructor
    · rintro ⟨dividing, rfl⟩
      exact Arithmetic.apply_divisor_zero policy dividing
    · intro divides
      exact ⟨_, fun r => Arithmetic.yields_iff divides, Arithmetic.obeys_apply policy divides⟩
  · intro operand a kinded reached
    rw [value_negate_int32 policy kinded reached]
    exact UnaryOp.obeys_apply_negate policy a

/-- The remainder of a column by -1, and the column negated, on a row that holds the lowest integer. -/
theorem int32_arithmetic_exact_lowest :
    let column := field ⟨0, "n", .int32⟩
    let row : Fields := fun _ => some (.int32 (-0x80000000))
    column.valueAs .int32 .detached row = .ok (.int32 (-0x80000000)) ∧ Arithmetic.mod.Yields (-0x80000000) (-1) 0 ∧
      (binary (.arithmetic .mod) .int32 .trap column (constant (.int32 (-1)))).value .detached row =
        .error (.overflow "mod" .int32) ∧
      ∃ n : Int32, (unary .negate .saturate column).value .detached row = .ok (.int32 n) ∧ n.toInt = 0x7FFFFFFF := by
  intro column row
  have left : column.valueAs .int32 .detached row = .ok (.int32 (-0x80000000)) := rfl
  have right : (constant (.int32 (-1))).valueAs .int32 .detached row = .ok (.int32 (-1)) := rfl
  have divides : ¬((Arithmetic.mod = .div ∨ Arithmetic.mod = .mod) ∧ (-1 : Int32) = 0) := by decide
  obtain ⟨_, _, obeyed⟩ := ((int32_arithmetic_exact .trap .detached row).1 .mod _ _ _ _ left right).2 divides
  have division : TruncatedDivision (-0x80000000) (-1) 0x80000000 0 := ⟨by decide, by decide, .inr (by decide)⟩
  have negated := (int32_arithmetic_exact .saturate .detached row).2 column _ rfl left
  exact ⟨left, .mod division, obeyed.1 (.inr ⟨rfl, rfl, rfl⟩), negated⟩

end Expr

end ReportEngine
