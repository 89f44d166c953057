import ReportEngine.Expr.Eval

/-! Constant folding. Each node is rebuilt from its folded children; what is constant is evaluated
once, and a constant whose evaluation fails stays, so that the failure shows where it always did. -/

namespace ReportEngine

namespace Expr

/-- Evaluates a constant node where nothing is bound, and keeps it if that fails. -/
def foldConstant (node : Expr) : Expr :=
  match node.value .detached (fun _ => none) with
  | .ok value => constant value
  | .error _ => node

/-- Whether a right operand leaves every left operand as it is. Adding a positive zero to a double
does not: it turns `-0.0` into `0.0`. -/
def isRightIdentity (op : BinaryOp) (operandKind : Kind) (rhs : Expr) : Bool :=
  match operandKind, op, rhs with
  | .int32, .arithmetic .add, constant (.int32 n) => n == 0
  | .int32, .arithmetic .sub, constant (.int32 n) => n == 0
  | .int32, .arithmetic .mul, constant (.int32 n) => n == 1
  | .int32, .arithmetic .div, constant (.int32 n) => n == 1
  | .double, .arithmetic .sub, constant (.double d) => d == .zero
  | .double, .arithmetic .mul, constant (.double d) => d == .ofInt 1
  | .double, .arithmetic .div, constant (.double d) => d == .ofInt 1
  | .decimal, .arithmetic .add, constant (.decimal d) => d.isZero && d.scale ≤ 0
  | .decimal, .arithmetic .sub, constant (.decimal d) => d.isZero && d.scale ≤ 0
  | .string, .arithmetic .add, constant (.string text) => text == ""
  | _, _, _ => false

def foldBinary (op : BinaryOp) (operandKind : Kind) (overflow : OverflowPolicy) (lhs rhs : Expr) :
    Expr :=
  let node := binary op operandKind overflow lhs rhs
  if lhs.isConstant && rhs.isConstant then node.foldConstant
  else if isRightIdentity op operandKind rhs && lhs.kind == node.kind && !lhs.mayYieldEmpty then lhs
  else node

def foldUnary (op : UnaryOp) (overflow : OverflowPolicy) (operand : Expr) : Expr :=
  let node := unary op overflow operand
  if operand.isConstant then node.foldConstant else node

def literalTruth? : Expr → Option Bool
  | constant value => value.toBoolean.toOption
  | _ => none

def foldLogical (op : LogicalOp) (lhs rhs : Expr) : Expr :=
  let node := logical op lhs rhs
  match lhs.literalTruth? with
  | none => node
  | some left =>
    if left == op.deciding then constant (.boolean left)
    else if rhs.isConstant then node.foldConstant
    else if rhs.kind == .boolean && !rhs.mayYieldEmpty then rhs
    else node

def foldConvert (inner : Expr) (kind : Kind) : Expr :=
  let node := convert inner kind
  if inner.kind == kind && (kind == .variant || !inner.mayYieldEmpty) then inner
  else if inner.isConstant && kind != .variant then node.foldConstant
  else node

/-- A decided condition leaves one branch, the alternative in the kind of the consequent. -/
def foldIif (kind : Kind) (condition consequent alternative : Expr) : Expr :=
  match condition.literalTruth? with
  | none => iif condition consequent alternative
  | some true => consequent
  | some false => if alternative.kind == kind then alternative else foldConvert alternative kind

end Expr

mutual

def Expr.fold : Expr → Expr
  | .binary op operandKind overflow lhs rhs => .foldBinary op operandKind overflow lhs.fold rhs.fold
  | .unary op overflow operand => .foldUnary op overflow operand.fold
  | .logical op lhs rhs => .foldLogical op lhs.fold rhs.fold
  | .switch condition result others => .switch condition.fold result.fold others.fold
  | .iif condition consequent alternative =>
    .foldIif consequent.kind condition.fold consequent.fold alternative.fold
  | .convert inner kind => .foldConvert inner.fold kind
  | .constant value => .constant value
  | .field reference => .field reference
  | .parameter name kind => .parameter name kind
  | .aggregate name kind => .aggregate name kind
  | .global which => .global which

def Branches.fold : Branches → Branches
  | .nil => .nil
  | .cons condition result rest => .cons condition.fold result.fold rest.fold

end

structure FoldStats where
  before : Nat
  after : Nat
deriving DecidableEq, Repr

namespace FoldStats

def zero : FoldStats := ⟨0, 0⟩

def add (left right : FoldStats) : FoldStats := ⟨left.before + right.before, left.after + right.after⟩

def ofExpr (expr : Expr) : FoldStats := ⟨expr.nodeCount, expr.fold.nodeCount⟩

def removed (stats : FoldStats) : Nat := stats.before - stats.after

end FoldStats

end ReportEngine
