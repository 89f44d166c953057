import ReportEngine.Expr.Build
import ReportEngine.Proofs.Operators
import ReportEngine.Proofs.Tracing

/-! The kind a tree declares is the kind of its values. Nothing is the one value that may stand in for
another, and only where a switch can come out without a match. -/

namespace ReportEngine

variable {context : Context} {fields : Fields}

namespace Expr

theorem eval_binary {op : BinaryOp} {operandKind : Kind} {overflow : OverflowPolicy} {lhs rhs : Expr}
    (supported : op.supports operandKind = true) :
    (binary op operandKind overflow lhs rhs).eval context fields =
      ((lhs.eval context fields).convert operandKind).bind fun left =>
        ((rhs.eval context fields).convert operandKind).bind fun right =>
          .ofExcept (op.apply overflow left right) := by
  rw [eval, if_neg (BinaryOp.supports_definite supported)]

/-- Operands that have the kind of the operation are taken as they are. -/
theorem value_binary {op : BinaryOp} {operandKind : Kind} {overflow : OverflowPolicy} {lhs rhs : Expr}
    {left right : Value} (supported : op.supports operandKind = true)
    (leftReached : lhs.value context fields = .ok left) (rightReached : rhs.value context fields = .ok right)
    (leftKind : left.kind = operandKind) (rightKind : right.kind = operandKind) :
    (binary op operandKind overflow lhs rhs).value context fields = op.apply overflow left right := by
  have leftKept : left.convert operandKind = .ok left := leftKind ▸ left.convert_kind
  have rightKept : right.convert operandKind = .ok right := rightKind ▸ right.convert_kind
  rw [value, eval_binary supported, Traced.convert, Traced.bind_of_ok leftReached, leftKept, Traced.convert,
    Traced.bind_of_ok rightReached, rightKept]
  rfl

/-- Both unary operators evaluate their operand in the kind it declares. -/
theorem eval_unary {op : UnaryOp} {overflow : OverflowPolicy} {operand : Expr}
    (supported : op.supports operand.kind = true) :
    (unary op overflow operand).eval context fields =
      ((operand.eval context fields).convert operand.kind).bind fun value => .ofExcept (op.apply overflow value) := by
  cases op with
  | not => rw [eval, eq_of_beq supported]
  | negate => rw [eval, if_pos (show operand.kind.isNumeric = true from supported)]

/-- The value is of the declared kind, unless that kind promises nothing or the tree says of itself that
it may come out empty. -/
def Promises (expr : Expr) (value : Value) : Prop :=
  expr.kind = .variant ∨ value.kind = expr.kind ∨ value = .empty ∧ expr.mayYieldEmpty = true

private theorem kind_of_converted {traced : Traced Value} {kind : Kind} {value : Value}
    (reached : (traced.convert kind).result = .ok value) : kind = .variant ∨ value.kind = kind := by
  obtain ⟨_, _, converted⟩ := Traced.convert_eq_ok reached
  exact Value.kind_of_convert converted

private theorem kind_of_resolve {bound : Option Value} {kind : Kind} {label : String} {value : Value}
    (reached : resolve bound kind label = .ok value) : kind = .variant ∨ value.kind = kind := by
  cases bound with
  | none => cases reached
  | some held => exact Value.kind_of_convert reached

private theorem kind_of_global {which : Global} {value : Value} (reached : which.eval context = .ok value) :
    value.kind = which.kind := by
  cases which with
  | pageNumber | totalPages =>
    simp only [Global.eval, Global.page] at reached
    split at reached <;> cases reached
    rfl
  | executionTime | reportName => cases reached; rfl

end Expr

mutual
theorem Expr.promises_value : ∀ (expr : Expr) {value : Value}, expr.WellBuilt →
    expr.value context fields = .ok value → expr.Promises value
  | .constant literal, value, _, reached => by
    cases reached
    exact .inr (.inl rfl)
  | .binary op operandKind overflow lhs rhs, value, built, reached => by
    rw [Expr.value, Expr.eval_binary built.1] at reached
    obtain ⟨left, leftReached, reached⟩ := Traced.bind_eq_ok reached
    obtain ⟨right, _, applied⟩ := Traced.bind_eq_ok reached
    obtain ⟨_, _, converted⟩ := Traced.convert_eq_ok leftReached
    have kinded := Value.kind_of_convert_definite (BinaryOp.supports_definite built.1) converted
    have resultKind := BinaryOp.kind_of_apply applied
    rw [kinded] at resultKind
    exact .inr (.inl resultKind)
  | .unary op overflow operand, value, built, reached => by
    rw [Expr.value, Expr.eval_unary built.1] at reached
    obtain ⟨inner, innerReached, applied⟩ := Traced.bind_eq_ok reached
    obtain ⟨_, _, converted⟩ := Traced.convert_eq_ok innerReached
    have kinded := Value.kind_of_convert_definite (UnaryOp.supports_definite built.1) converted
    have resultKind := UnaryOp.kind_of_apply applied
    rw [kinded] at resultKind
    exact .inr (.inl resultKind)
  | .logical op lhs rhs, value, _, reached => by
    obtain ⟨left, _, reached⟩ := Traced.bind_eq_ok reached
    split at reached
    · cases reached
      exact .inr (.inl rfl)
    · obtain ⟨right, _, reached⟩ := Traced.bind_eq_ok reached
      cases reached
      exact .inr (.inl rfl)
  | .switch condition result others, value, built, reached => by
    obtain ⟨matched, _, reached⟩ := Traced.bind_eq_ok reached
    have kinded : result.kind = .variant ∨ value.kind = result.kind ∨ value = .empty := by
      split at reached
      · have promised := result.promises_value built.2.1 reached
        exact promised.imp id (Or.imp id And.left)
      · exact others.promise_value built.2.2 reached
    by_cases indefinite : result.kind = .variant
    · exact .inl indefinite
    · have admits : (Expr.switch condition result others).mayYieldEmpty = true := by
        simpa [Expr.mayYieldEmpty] using indefinite
      exact kinded.imp id (Or.imp id (⟨·, admits⟩))
  | .iif condition consequent alternative, value, built, reached => by
    obtain ⟨chosen, _, reached⟩ := Traced.bind_eq_ok reached
    split at reached
    · have promised := consequent.promises_value built.2.1 reached
      exact promised.imp id (Or.imp id (And.imp id fun admits => by simp [Expr.mayYieldEmpty, admits]))
    · split at reached
      next same =>
        have promised := alternative.promises_value built.2.2 reached
        rw [Expr.Promises, same] at promised
        exact promised.imp id (Or.imp id (And.imp id fun admits => by simp [Expr.mayYieldEmpty, same, admits]))
      next => exact (Expr.kind_of_converted reached).imp id .inl
  | .convert inner kind, value, _, reached => by
    exact (Expr.kind_of_converted reached).imp id .inl
  | .field reference, value, _, reached => (Expr.kind_of_resolve reached).imp id .inl
  | .parameter name kind, value, _, reached => (Expr.kind_of_resolve reached).imp id .inl
  | .aggregate name kind, value, _, reached => (Expr.kind_of_resolve reached).imp id .inl
  | .global which, value, _, reached => .inr (.inl (Expr.kind_of_global reached))

theorem Branches.promise_value : ∀ (branches : Branches) {kind : Kind} {value : Value}, branches.WellBuilt →
    (branches.eval context fields kind).result = .ok value →
    kind = .variant ∨ value.kind = kind ∨ value = .empty
  | .nil, kind, value, _, reached => by
    cases reached
    exact .inr (.inr rfl)
  | .cons condition result rest, kind, value, built, reached => by
    obtain ⟨matched, _, reached⟩ := Traced.bind_eq_ok reached
    split at reached
    · split at reached
      next same =>
        have promised := result.promises_value built.2.1 reached
        rw [Expr.Promises, same] at promised
        exact promised.imp id (Or.imp id And.left)
      next => exact (Expr.kind_of_converted reached).imp id .inl
    · exact rest.promise_value built.2.2 reached
end

namespace Expr

/-- A tree yields values of the kind it declares or, where it says so of itself, nothing. Seen as one of
that kind its value is therefore the same, with nothing replaced by the zero of the kind. -/
theorem value_soundness (expr : Expr) (built : expr.WellBuilt) (context : Context) (fields : Fields) :
    (∀ value, expr.value context fields = .ok value →
      expr.kind = .variant ∨ value.kind = expr.kind ∨ value = .empty ∧ expr.mayYieldEmpty = true) ∧
    expr.valueAs expr.kind context fields = (expr.value context fields).map expr.kind.filled := by
  refine ⟨fun value reached => expr.promises_value built reached, ?_⟩
  cases outcome : expr.value context fields with
  | error error => rw [valueAs, Traced.convert, Traced.bind_of_error outcome]; rfl
  | ok value =>
    have promised := expr.promises_value built outcome
    rw [valueAs, Traced.convert, Traced.bind_of_ok outcome]
    exact Value.convert_promised (promised.imp id (Or.imp id And.left))

/-- A switch over integers that matches nothing. -/
def unmatchedSwitch : Expr := switch (constant (.boolean false)) (constant (.int32 7)) .nil

theorem value_soundness_unmatchedSwitch : unmatchedSwitch.WellBuilt ∧
    unmatchedSwitch.value .detached (fun _ => none) = .ok .empty ∧
    unmatchedSwitch.valueAs .int32 .detached (fun _ => none) = .ok (.int32 0) := by
  have built : unmatchedSwitch.WellBuilt := ⟨trivial, trivial, trivial⟩
  exact ⟨built, rfl, (value_soundness unmatchedSwitch built .detached fun _ => none).2⟩

end Expr

end ReportEngine
