import ReportEngine.Context
import ReportEngine.Expr.Arithmetic
import ReportEngine.Expr.Basic
import ReportEngine.Expr.Traced
import ReportEngine.Value.Order

/-! Evaluation, depth first and left to right. A tree yields a value of its declared kind, or nothing
for a switch without a match. -/

namespace ReportEngine

namespace Traced

def convert (traced : Traced Value) (kind : Kind) : Traced Value :=
  traced.bind fun value => .ofExcept (value.convert kind)

def truth (traced : Traced Value) : Traced Bool :=
  traced.bind fun value => .ofExcept value.toBoolean

end Traced

/-- The value a reference is bound to, in its declared kind. -/
def resolve (bound : Option Value) (kind : Kind) (label : String) : Except ExprError Value :=
  match bound with
  | some value => value.convert kind
  | none => .error (.unboundReference label)

namespace BinaryOp

/-- Applies the operator to two values of one kind. -/
def apply (op : BinaryOp) (overflow : OverflowPolicy) (left right : Value) : Except ExprError Value :=
  match op with
  | arithmetic op => op.apply overflow left right
  | comparison test => .ok (.boolean (test.holds (left.compare right)))

end BinaryOp

namespace Global

/-- Pages are counted beyond the 32-bit integers, but cannot be read there. -/
def page (global : Global) (n : Nat) : Except ExprError Value :=
  if n < 0x80000000 then .ok (.int32 (Int32.ofNat n)) else .error (.overflow global.name .int32)

def eval (global : Global) (context : Context) : Except ExprError Value :=
  match global with
  | pageNumber => global.page context.pageNumber
  | totalPages => global.page context.totalPages
  | executionTime => .ok (.dateTime context.executionTime)
  | reportName => .ok (.string context.name)

end Global

mutual

def Expr.eval (context : Context) (fields : Fields) : Expr → Traced Value
  | .constant value => .pure value
  | .binary op operandKind overflow lhs rhs =>
    if operandKind = .variant then .ofExcept (.error (.unsupportedOperator op.name .variant))
    else
      ((lhs.eval context fields).convert operandKind).bind fun left =>
        ((rhs.eval context fields).convert operandKind).bind fun right =>
          .ofExcept (op.apply overflow left right)
  | .unary .not overflow operand =>
    ((operand.eval context fields).convert .boolean).bind fun value =>
      .ofExcept (UnaryOp.not.apply overflow value)
  | .unary .negate overflow operand =>
    if operand.kind.isNumeric then
      ((operand.eval context fields).convert operand.kind).bind fun value =>
        .ofExcept (UnaryOp.negate.apply overflow value)
    else .ofExcept (.error (.unsupportedOperator UnaryOp.negate.name operand.kind))
  | .logical op lhs rhs =>
    (lhs.eval context fields).truth.bind fun left =>
      if left = op.deciding then .pure (.boolean left)
      else (rhs.eval context fields).truth.bind fun right => .pure (.boolean right)
  | .switch condition result others =>
    (condition.eval context fields).truth.bind fun matched =>
      if matched then result.eval context fields else others.eval context fields result.kind
  | .iif condition consequent alternative =>
    (condition.eval context fields).truth.bind fun chosen =>
      if chosen then consequent.eval context fields
      else if alternative.kind = consequent.kind then alternative.eval context fields
      else (alternative.eval context fields).convert consequent.kind
  | .convert inner kind => (inner.eval context fields).convert kind
  | .field reference =>
    .read reference.index <|
      resolve (fields reference.index) reference.kind (Schema.fieldLabel reference.name)
  | .parameter name kind =>
    .ofExcept (resolve (context.parameters.get? name) kind ("Parameters!" ++ name))
  | .aggregate name kind =>
    .ofExcept (resolve (context.aggregates.get? name) kind ("Aggregates!" ++ name))
  | .global which => .ofExcept (which.eval context)

/-- The first branch that matches, its result converted if it declares another kind than `kind`. -/
def Branches.eval (context : Context) (fields : Fields) : Branches → Kind → Traced Value
  | .nil, _ => .pure .empty
  | .cons condition result rest, kind =>
    (condition.eval context fields).truth.bind fun matched =>
      if matched then
        if result.kind = kind then result.eval context fields
        else (result.eval context fields).convert kind
      else rest.eval context fields kind

end

namespace Expr

/-- The value or the error a tree yields, without the trace. -/
def value (context : Context) (fields : Fields) (expr : Expr) : Except ExprError Value :=
  (expr.eval context fields).result

def valueAs (kind : Kind) (context : Context) (fields : Fields) (expr : Expr) :
    Except ExprError Value :=
  ((expr.eval context fields).convert kind).result

end Expr

end ReportEngine
