import ReportEngine.Expr.Fold
import ReportEngine.Proofs.ExactDoubles
import ReportEngine.Proofs.Operators

/-! The right operands that constant folding takes away. All of them leave every left value of their
kind as it is, except that a decimal zero raises the scale of a sum to its own. -/

namespace ReportEngine

theorem Int32.clamp_toInt (n : Int32) : Int32.clamp n.toInt = n := by
  have lower := n.le_toInt
  have upper := n.toInt_lt
  rw [Int32.clamp, Int.min_eq_left (by omega), Int.max_eq_right (by omega), Int32.ofInt_toInt]

namespace Decimal

theorem add_of_isZero {left zero : Decimal} (isZero : zero.isZero = true) (reaches : zero.scale ≤ left.scale) :
    left.add zero = left := by
  rw [add, if_pos isZero, atLeastScale, if_neg (by omega)]

theorem sub_of_isZero {left zero : Decimal} (isZero : zero.isZero = true) : left.sub zero = left := by
  rw [sub, if_pos isZero]

/-- A sum is kept at no lower a scale than its right operand. -/
theorem scale_le_add (left right : Decimal) : right.scale ≤ (left.add right).scale := by
  simp only [add, atLeastScale]
  split
  · split
    · exact Int.le_refl _
    · omega
  · split
    · split
      · show right.scale ≤ left.scale
        omega
      · exact Int.le_refl _
    · exact Int.le_max_right _ _

end Decimal

namespace Arithmetic

variable {op : Arithmetic} {policy : OverflowPolicy}

private theorem applyInt32_neutral {a b : Int32} (divides : ¬((op = div ∨ op = mod) ∧ b = 0)) (whole : op ≠ mod)
    (exact : op.exact a.toInt b.toInt = a.toInt) (wrapped : op.wrapped a b = a) :
    op.applyInt32 policy a b = .ok a := by
  have checked : op.checked a b = some a := by
    cases op with
    | mod => exact absurd rfl whole
    | add | sub | mul | div => simp only [Arithmetic.checked, exact, Int32.ofInt?_toInt]
  rw [applyInt32, if_neg divides, checked, wrapped, exact, Int32.clamp_toInt, OverflowPolicy.resolve_fitting]

end Arithmetic

/-- The right operands that folding takes away, each with the operators it does so for. -/
inductive RightNeutral : BinaryOp → Value → Prop where
  | addInt32 : RightNeutral (.arithmetic .add) (.int32 0)
  | subInt32 : RightNeutral (.arithmetic .sub) (.int32 0)
  | mulInt32 : RightNeutral (.arithmetic .mul) (.int32 1)
  | divInt32 : RightNeutral (.arithmetic .div) (.int32 1)
  | subDouble : RightNeutral (.arithmetic .sub) (.double .zero)
  | mulDouble {one : Double} (isOne : one = .ofInt 1) : RightNeutral (.arithmetic .mul) (.double one)
  | divDouble {one : Double} (isOne : one = .ofInt 1) : RightNeutral (.arithmetic .div) (.double one)
  | addDecimal {zero : Decimal} (isZero : zero.isZero = true) (whole : zero.scale ≤ 0) :
      RightNeutral (.arithmetic .add) (.decimal zero)
  | subDecimal {zero : Decimal} (isZero : zero.isZero = true) (whole : zero.scale ≤ 0) :
      RightNeutral (.arithmetic .sub) (.decimal zero)
  | join : RightNeutral (.arithmetic .add) (.string "")

/-- Only literals of the operand kind are taken away. -/
theorem Expr.rightNeutral {op : BinaryOp} {kind : Kind} {rhs : Expr} (identity : isRightIdentity op kind rhs = true) :
    ∃ value, rhs = constant value ∧ value.kind = kind ∧ RightNeutral op value := by
  unfold isRightIdentity at identity
  split at identity
  next => cases eq_of_beq identity; exact ⟨_, rfl, rfl, .addInt32⟩
  next => cases eq_of_beq identity; exact ⟨_, rfl, rfl, .subInt32⟩
  next => cases eq_of_beq identity; exact ⟨_, rfl, rfl, .mulInt32⟩
  next => cases eq_of_beq identity; exact ⟨_, rfl, rfl, .divInt32⟩
  next => cases eq_of_beq identity; exact ⟨_, rfl, rfl, .subDouble⟩
  next => exact ⟨_, rfl, rfl, .mulDouble (eq_of_beq identity)⟩
  next => exact ⟨_, rfl, rfl, .divDouble (eq_of_beq identity)⟩
  next =>
    obtain ⟨isZero, whole⟩ := Bool.and_eq_true_iff.mp identity
    exact ⟨_, rfl, rfl, .addDecimal isZero (of_decide_eq_true whole)⟩
  next =>
    obtain ⟨isZero, whole⟩ := Bool.and_eq_true_iff.mp identity
    exact ⟨_, rfl, rfl, .subDecimal isZero (of_decide_eq_true whole)⟩
  next => cases eq_of_beq identity; exact ⟨_, rfl, rfl, .join⟩
  next => cases identity

namespace RightNeutral

variable {op : BinaryOp} {value left : Value}

theorem resultKind {kind : Kind} (neutral : RightNeutral op value) : op.resultKind kind = kind := by
  cases neutral <;> rfl

/-- A neutral operand leaves every left value of its kind as it is, a sum of decimals under the
condition that the left value is written with as many places. -/
theorem apply (neutral : RightNeutral op value) (overflow : OverflowPolicy) (kinded : left.kind = value.kind)
    (reaches : ∀ whole zero, op = .arithmetic .add → left = .decimal whole → value = .decimal zero →
      zero.scale ≤ whole.scale) :
    op.apply overflow left value = .ok left := by
  cases neutral with
  | addInt32 | subInt32 | mulInt32 | divInt32 =>
    cases left with
    | int32 n =>
      refine congrArg (Except.map Value.int32) (Arithmetic.applyInt32_neutral ?_ ?_ ?_ ?_)
      all_goals simp [Arithmetic.exact, Arithmetic.wrapped]
    | _ => cases kinded
  | subDouble =>
    cases left with
    | double d => exact congrArg (Except.ok ∘ Value.double) d.sub_zero
    | _ => cases kinded
  | mulDouble isOne =>
    cases left with
    | double d => exact congrArg (Except.ok ∘ Value.double) ((congrArg d.mul isOne).trans d.mul_one)
    | _ => cases kinded
  | divDouble isOne =>
    cases left with
    | double d => exact congrArg (Except.ok ∘ Value.double) ((congrArg d.div isOne).trans d.div_one)
    | _ => cases kinded
  | addDecimal isZero whole =>
    cases left with
    | decimal d => exact congrArg (Except.ok ∘ Value.decimal) (d.add_of_isZero isZero (reaches _ _ rfl rfl rfl))
    | _ => cases kinded
  | subDecimal isZero whole =>
    cases left with
    | decimal d => exact congrArg (Except.ok ∘ Value.decimal) (d.sub_of_isZero isZero)
    | _ => cases kinded
  | join =>
    cases left with
    | string text => exact congrArg (Except.ok ∘ Value.string) String.append_empty
    | _ => cases kinded

end RightNeutral

end ReportEngine
