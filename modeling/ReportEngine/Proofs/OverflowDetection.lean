import ReportEngine.Proofs.ExactIntegers

/-! What a trap can be trusted to find. A tree whose nodes all trap comes to the same, by the same reads, as
the tree under any other policies, unless it ends in an overflow. -/

namespace ReportEngine

variable {context : Context} {fields : Fields}

/-- The evaluation ended in an overflow, of a node or of a page number. -/
def Overflowed {α : Type} (outcome : Except ExprError α) : Prop :=
  ∃ label kind, outcome = .error (.overflow label kind)

section Operators

/-- Where an operation does not overflow its exact result fits, and all policies yield it. -/
theorem OverflowPolicy.agree_with_trap {policy : OverflowPolicy} {label : String} {exact : Int} {overflows : Prop}
    {trapped outcome : Except ExprError Value} (fits : ¬overflows → Int32.Fits exact)
    (first : trap.Obeys label exact overflows trapped) (second : policy.Obeys label exact overflows outcome) :
    Overflowed trapped ∨ outcome = trapped := by
  by_cases exceeded : overflows
  · exact .inl ⟨label, .int32, first.1 exceeded⟩
  · right
    obtain ⟨n, rfl, whole⟩ := first.2 exceeded
    obtain ⟨lower, upper⟩ := fits exceeded
    have reached : ∃ m : Int32, outcome = .ok (.int32 m) ∧ m.toInt = exact := by
      cases policy with
      | wrap =>
        obtain ⟨m, same, reduced⟩ := second
        exact ⟨m, same, reduced.trans (Int32.toInt_bmod_of_fits ⟨lower, upper⟩)⟩
      | saturate =>
        obtain ⟨m, same, clamped⟩ := second
        exact ⟨m, same, by omega⟩
      | trap => exact second.2 exceeded
    obtain ⟨m, rfl, same⟩ := reached
    rw [Int32.toInt_inj.mp (same.trans whole.symm)]

theorem Arithmetic.agree_with_trap (op : Arithmetic) (policy : OverflowPolicy) (left right : Value) :
    Overflowed (op.apply .trap left right) ∨ op.apply policy left right = op.apply .trap left right := by
  cases left with
  | int32 a =>
    cases right with
    | int32 b =>
      by_cases divides : (op = div ∨ op = mod) ∧ b = 0
      · obtain ⟨dividing, rfl⟩ := divides
        exact .inr ((apply_divisor_zero policy dividing).trans (apply_divisor_zero .trap dividing).symm)
      · refine OverflowPolicy.agree_with_trap ?_ (obeys_apply .trap divides) (obeys_apply policy divides)
        exact fun fitting => Decidable.not_not.mp (not_or.mp fitting).1
    | _ => exact .inr rfl
  | _ => cases right <;> exact .inr rfl

theorem BinaryOp.agree_with_trap (op : BinaryOp) (policy : OverflowPolicy) (left right : Value) :
    Overflowed (op.apply .trap left right) ∨ op.apply policy left right = op.apply .trap left right := by
  cases op with
  | arithmetic op => exact op.agree_with_trap policy left right
  | comparison test => exact .inr rfl

theorem UnaryOp.agree_with_trap (op : UnaryOp) (policy : OverflowPolicy) (value : Value) :
    Overflowed (op.apply .trap value) ∨ op.apply policy value = op.apply .trap value := by
  cases op with
  | not => cases value <;> exact .inr rfl
  | negate =>
    cases value with
    | int32 n =>
      exact OverflowPolicy.agree_with_trap Decidable.not_not.mp (obeys_apply_negate .trap n) (obeys_apply_negate policy n)
    | _ => exact .inr rfl

end Operators

namespace Traced

variable {α β : Type}

/-- A run that ended in an overflow, or that tells what the other one comes to and what it reads. -/
def Vouches (trapping other : Traced α) : Prop := Overflowed trapping.result ∨ other = trapping

theorem Vouches.refl (traced : Traced α) : Vouches traced traced := .inr rfl

theorem Vouches.ofExcept {trapped outcome : Except ExprError α} (agree : Overflowed trapped ∨ outcome = trapped) :
    Vouches (.ofExcept trapped) (.ofExcept outcome) :=
  agree.imp id (congrArg _)

theorem Vouches.bind {trapping other : Traced α} {next further : α → Traced β} (head : Vouches trapping other)
    (tail : ∀ value, Vouches (next value) (further value)) :
    Vouches (trapping.bind next) (other.bind further) := by
  rcases head with ⟨label, kind, overflow⟩ | rfl
  · exact .inl ⟨label, kind, by rw [bind_of_error overflow]⟩
  · cases outcome : other.result with
    | error error =>
      rw [bind_of_error outcome, bind_of_error outcome]
      exact .refl _
    | ok value =>
      rw [bind_of_ok outcome, bind_of_ok outcome]
      exact (tail value).imp id fun same => by rw [same]

theorem Vouches.convert {trapping other : Traced Value} (head : Vouches trapping other) (kind : Kind) :
    Vouches (trapping.convert kind) (other.convert kind) :=
  head.bind fun _ => .refl _

theorem Vouches.truth {trapping other : Traced Value} (head : Vouches trapping other) :
    Vouches trapping.truth other.truth :=
  head.bind fun _ => .refl _

end Traced

mutual

/-- The tree with one policy for all its nodes. -/
def Expr.withOverflow (policy : OverflowPolicy) : Expr → Expr
  | .binary op operandKind _ lhs rhs =>
    .binary op operandKind policy (lhs.withOverflow policy) (rhs.withOverflow policy)
  | .unary op _ operand => .unary op policy (operand.withOverflow policy)
  | .logical op lhs rhs => .logical op (lhs.withOverflow policy) (rhs.withOverflow policy)
  | .switch condition result others =>
    .switch (condition.withOverflow policy) (result.withOverflow policy) (others.withOverflow policy)
  | .iif condition consequent alternative =>
    .iif (condition.withOverflow policy) (consequent.withOverflow policy) (alternative.withOverflow policy)
  | .convert inner kind => .convert (inner.withOverflow policy) kind
  | .constant value => .constant value
  | .field reference => .field reference
  | .parameter name kind => .parameter name kind
  | .aggregate name kind => .aggregate name kind
  | .global which => .global which

def Branches.withOverflow (policy : OverflowPolicy) : Branches → Branches
  | .nil => .nil
  | .cons condition result rest =>
    .cons (condition.withOverflow policy) (result.withOverflow policy) (rest.withOverflow policy)

end

theorem Expr.kind_withOverflow (policy : OverflowPolicy) : ∀ expr : Expr, (expr.withOverflow policy).kind = expr.kind
  | .unary _ _ operand => operand.kind_withOverflow policy
  | .switch _ result _ => result.kind_withOverflow policy
  | .iif _ consequent _ => consequent.kind_withOverflow policy
  | .binary .. | .logical .. | .convert .. | .constant _ | .field _ | .parameter .. | .aggregate .. | .global _ => rfl

section Evaluation

open Traced

mutual

/-- Policies matter only at nodes that overflow, and the first of these ends the run that traps. -/
theorem Expr.trap_vouches : ∀ expr : Expr,
    Vouches ((expr.withOverflow .trap).eval context fields) (expr.eval context fields)
  | .binary op operandKind overflow lhs rhs => by
    rw [Expr.withOverflow, Expr.eval, Expr.eval]
    split
    · exact .refl _
    · refine (lhs.trap_vouches.convert operandKind).bind fun left => ?_
      refine (rhs.trap_vouches.convert operandKind).bind fun right => ?_
      exact .ofExcept (op.agree_with_trap overflow left right)
  | .unary .not overflow operand =>
    (operand.trap_vouches.convert .boolean).bind fun value => .ofExcept (UnaryOp.not.agree_with_trap overflow value)
  | .unary .negate overflow operand => by
    rw [Expr.withOverflow, Expr.eval, Expr.eval, Expr.kind_withOverflow]
    split
    · refine (operand.trap_vouches.convert operand.kind).bind fun value => ?_
      exact .ofExcept (UnaryOp.negate.agree_with_trap overflow value)
    · exact .refl _
  | .logical op lhs rhs => by
    refine lhs.trap_vouches.truth.bind fun left => ?_
    split
    · exact .refl _
    · exact rhs.trap_vouches.truth.bind fun right => .refl _
  | .switch condition result others => by
    refine condition.trap_vouches.truth.bind fun matched => ?_
    rw [Expr.kind_withOverflow]
    split
    · exact result.trap_vouches
    · exact others.trap_vouches result.kind
  | .iif condition consequent alternative => by
    refine condition.trap_vouches.truth.bind fun chosen => ?_
    rw [Expr.kind_withOverflow, Expr.kind_withOverflow]
    split
    · exact consequent.trap_vouches
    · split
      · exact alternative.trap_vouches
      · exact alternative.trap_vouches.convert consequent.kind
  | .convert inner kind => inner.trap_vouches.convert kind
  | .constant _ | .field _ | .parameter .. | .aggregate .. | .global _ => .refl _

theorem Branches.trap_vouches : ∀ (branches : Branches) (kind : Kind),
    Vouches ((branches.withOverflow .trap).eval context fields kind) (branches.eval context fields kind)
  | .nil, _ => .refl _
  | .cons condition result rest, kind => by
    refine condition.trap_vouches.truth.bind fun matched => ?_
    rw [Expr.kind_withOverflow]
    split
    · split
      · exact result.trap_vouches
      · exact result.trap_vouches.convert kind
    · exact rest.trap_vouches kind

end

end Evaluation

namespace Expr

/-- A tree under the policies of its author, or under any others, comes to what it does when every node
traps, and reads the same fields in the same order, unless the latter ends in an overflow. -/
theorem eval_of_no_overflow (expr variant : Expr) (alike : variant.withOverflow .trap = expr.withOverflow .trap)
    (context : Context) (fields : Fields)
    (quiet : ∀ label kind, (expr.withOverflow .trap).value context fields ≠ .error (.overflow label kind)) :
    variant.eval context fields = (expr.withOverflow .trap).eval context fields := by
  rcases variant.trap_vouches with ⟨label, kind, overflow⟩ | same
  · rw [alike] at overflow
    exact absurd overflow (quiet label kind)
  · rw [same, alike]

/-- A column counted up while it is positive and turned around otherwise, the policies of both left open. -/
def stepOrTurn (step turn : OverflowPolicy) : Expr :=
  let column := field ⟨0, "n", .int32⟩
  iif (binary (.comparison .gt) .int32 .wrap column (constant (.int32 0)))
    (binary (.arithmetic .add) .int32 step column (constant (.int32 1))) (unary .negate turn column)

theorem eval_of_no_overflow_stepOrTurn :
    let row : Fields := fun _ => some (.int32 (-0x7FFFFFFF))
    (stepOrTurn .saturate .wrap).withOverflow .trap = (stepOrTurn .wrap .saturate).withOverflow .trap ∧
      ((stepOrTurn .wrap .saturate).withOverflow .trap).value .detached row = .ok (.int32 0x7FFFFFFF) ∧
      (stepOrTurn .saturate .wrap).eval .detached row =
        ((stepOrTurn .wrap .saturate).withOverflow .trap).eval .detached row := by
  intro row
  have alike : (stepOrTurn .saturate .wrap).withOverflow .trap = (stepOrTurn .wrap .saturate).withOverflow .trap := rfl
  have reached : ((stepOrTurn .wrap .saturate).withOverflow .trap).value .detached row = .ok (.int32 0x7FFFFFFF) := rfl
  have quiet : ∀ label kind,
      ((stepOrTurn .wrap .saturate).withOverflow .trap).value .detached row ≠ .error (.overflow label kind) := by
    intro label kind
    rw [reached]
    nofun
  exact ⟨alike, reached, eval_of_no_overflow _ _ alike .detached row quiet⟩

end Expr

end ReportEngine
