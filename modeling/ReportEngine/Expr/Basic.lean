import ReportEngine.Expr.Operator
import ReportEngine.Record

/-! Expression trees, and what can be told of a tree without evaluating it. -/

namespace ReportEngine

inductive Global where
  | pageNumber
  | totalPages
  | executionTime
  | reportName
deriving DecidableEq, Repr

namespace Global

def all : List Global := [pageNumber, totalPages, executionTime, reportName]

def name : Global → String
  | pageNumber => "PageNumber"
  | totalPages => "TotalPages"
  | executionTime => "ExecutionTime"
  | reportName => "ReportName"

def ofName? (text : String) : Option Global := all.find? fun global => global.name == text

def kind : Global → Kind
  | pageNumber | totalPages => .int32
  | executionTime => .dateTime
  | reportName => .string

theorem ofName?_name (global : Global) : ofName? global.name = some global := by
  cases global <;> decide

end Global

mutual

/-- An expression. A binary node evaluates both operands in `operandKind`, and only 32-bit arithmetic
asks for its overflow policy. A switch has a first branch, whose result sets the kind of the whole,
and further ones. -/
inductive Expr where
  | constant (value : Value)
  | binary (op : BinaryOp) (operandKind : Kind) (overflow : OverflowPolicy) (lhs rhs : Expr)
  | unary (op : UnaryOp) (overflow : OverflowPolicy) (operand : Expr)
  | logical (op : LogicalOp) (lhs rhs : Expr)
  | switch (condition result : Expr) (others : Branches)
  | iif (condition consequent alternative : Expr)
  | convert (inner : Expr) (kind : Kind)
  | field (reference : FieldRef)
  | parameter (name : String) (kind : Kind)
  | aggregate (name : String) (kind : Kind)
  | global (which : Global)
deriving DecidableEq

inductive Branches where
  | nil
  | cons (condition result : Expr) (rest : Branches)
deriving DecidableEq

end

instance : Inhabited Expr := ⟨.constant .empty⟩

instance : Inhabited Branches := ⟨.nil⟩

namespace Branches

def ofList : List (Expr × Expr) → Branches
  | [] => nil
  | (condition, result) :: rest => cons condition result (ofList rest)

/-- Conditions and results in turn. -/
def children : Branches → List Expr
  | nil => []
  | cons condition result rest => condition :: result :: rest.children

end Branches

namespace Expr

def kind : Expr → Kind
  | constant value => value.kind
  | binary op operandKind _ _ _ => op.resultKind operandKind
  | unary _ _ operand => operand.kind
  | logical _ _ _ => .boolean
  | switch _ result _ => result.kind
  | iif _ consequent _ => consequent.kind
  | convert _ kind => kind
  | field reference => reference.kind
  | parameter _ kind => kind
  | aggregate _ kind => kind
  | global which => which.kind

/-- Whether the value is the same in every context and row. Neither a reference nor a switch counts
as constant. -/
def isConstant : Expr → Bool
  | constant _ => true
  | binary _ _ _ lhs rhs => lhs.isConstant && rhs.isConstant
  | unary _ _ operand => operand.isConstant
  | logical _ lhs rhs => lhs.isConstant && rhs.isConstant
  | iif condition consequent alternative =>
    condition.isConstant && consequent.isConstant && alternative.isConstant
  | convert inner _ => inner.isConstant
  | switch _ _ _ | field _ | parameter _ _ | aggregate _ _ | global _ => false

/-- Whether a tree of a definite kind may still come out empty, as a switch without a match does. -/
def mayYieldEmpty : Expr → Bool
  | switch _ result _ => result.kind != .variant
  | iif _ consequent alternative =>
    consequent.mayYieldEmpty || (alternative.kind == consequent.kind && alternative.mayYieldEmpty)
  | _ => false

/-- The subtrees of a node, in the order they are evaluated in. -/
def children : Expr → List Expr
  | binary _ _ _ lhs rhs => [lhs, rhs]
  | unary _ _ operand => [operand]
  | logical _ lhs rhs => [lhs, rhs]
  | switch condition result others => condition :: result :: others.children
  | iif condition consequent alternative => [condition, consequent, alternative]
  | convert inner _ => [inner]
  | _ => []

end Expr

mutual

def Expr.nodeCount : Expr → Nat
  | .binary _ _ _ lhs rhs => 1 + (lhs.nodeCount + rhs.nodeCount)
  | .unary _ _ operand => 1 + operand.nodeCount
  | .logical _ lhs rhs => 1 + (lhs.nodeCount + rhs.nodeCount)
  | .switch condition result others =>
    1 + (condition.nodeCount + (result.nodeCount + others.nodeCount))
  | .iif condition consequent alternative =>
    1 + (condition.nodeCount + (consequent.nodeCount + alternative.nodeCount))
  | .convert inner _ => 1 + inner.nodeCount
  | .constant _ | .field _ | .parameter _ _ | .aggregate _ _ | .global _ => 1

def Branches.nodeCount : Branches → Nat
  | .nil => 0
  | .cons condition result rest => condition.nodeCount + (result.nodeCount + rest.nodeCount)

end

end ReportEngine
