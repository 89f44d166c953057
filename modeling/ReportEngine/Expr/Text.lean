import ReportEngine.Expr.Basic

/-! Trees in the notation of report expressions. -/

namespace ReportEngine

def Kind.conversionFunction : Kind → String
  | .boolean => "CBool"
  | .int32 => "CInt"
  | .double => "CDbl"
  | .decimal => "CDec"
  | .string => "CStr"
  | .dateTime => "CDate"
  | .variant => "CObj"

/-- A literal. A quote inside a text is written twice. -/
def Value.literal : Value → String
  | .empty => "Nothing"
  | .string text =>
    let quote := '\x22'
    String.ofList (quote :: text.toList.flatMap (fun c => if c == quote then [c, c] else [c]) ++ [quote])
  | .dateTime value => "#" ++ String.ofList value.toText ++ "#"
  | value => value.display

/-- Texts are joined by a sign of their own. -/
def BinaryOp.symbolOver (op : BinaryOp) (operandKind : Kind) : String :=
  if op = .arithmetic .add ∧ operandKind = .string then "&" else op.symbol

def LogicalOp.keyword : LogicalOp → String
  | and => "AndAlso"
  | or => "OrElse"

mutual

def Expr.text : Expr → String
  | .constant value => value.literal
  | .binary op operandKind _ lhs rhs =>
    "(" ++ lhs.text ++ " " ++ op.symbolOver operandKind ++ " " ++ rhs.text ++ ")"
  | .unary .negate _ operand => "-" ++ operand.text
  | .unary .not _ operand => "Not " ++ operand.text
  | .logical op lhs rhs => "(" ++ lhs.text ++ " " ++ op.keyword ++ " " ++ rhs.text ++ ")"
  | .switch condition result others =>
    "Switch(" ++ condition.text ++ ", " ++ result.text ++ others.text ++ ")"
  | .iif condition consequent alternative =>
    "IIf(" ++ condition.text ++ ", " ++ consequent.text ++ ", " ++ alternative.text ++ ")"
  | .convert inner kind => kind.conversionFunction ++ "(" ++ inner.text ++ ")"
  | .field reference => "Fields!" ++ reference.name ++ ".Value"
  | .parameter name _ => "Parameters!" ++ name ++ ".Value"
  | .aggregate name _ => "Aggregates!" ++ name
  | .global which => "Globals!" ++ which.name

def Branches.text : Branches → String
  | .nil => ""
  | .cons condition result rest => ", " ++ condition.text ++ ", " ++ result.text ++ rest.text

end

end ReportEngine
