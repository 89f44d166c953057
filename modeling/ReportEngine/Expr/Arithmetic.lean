import ReportEngine.Decimal.Arithmetic
import ReportEngine.Expr.Operator
import ReportEngine.Value.Convert

/-! Operators applied to values of one kind. -/

namespace ReportEngine

def Int32.clamp (n : Int) : Int32 := Int32.ofInt (max (-0x80000000) (min n 0x7FFFFFFF))

namespace OverflowPolicy

def resolve (policy : OverflowPolicy) (op : String) (checked : Option Int32)
    (wrapped saturated : Int32) : Except ExprError Int32 :=
  match policy with
  | wrap => .ok wrapped
  | saturate => .ok saturated
  | trap =>
    match checked with
    | some result => .ok result
    | none => .error (.overflow op .int32)

end OverflowPolicy

namespace Arithmetic

/-- The result over all integers. Quotients are truncated, and remainders have the sign of the left
operand. -/
def exact : Arithmetic → Int → Int → Int
  | add, a, b => a + b
  | sub, a, b => a - b
  | mul, a, b => a * b
  | div, a, b => a.tdiv b
  | mod, a, b => a.tmod b

def wrapped : Arithmetic → Int32 → Int32 → Int32
  | add, a, b => a + b
  | sub, a, b => a - b
  | mul, a, b => a * b
  | div, a, b => a / b
  | mod, a, b => a % b

/-- The result, if no overflow happens on the way. A remainder overflows where its quotient does. -/
def checked (op : Arithmetic) (a b : Int32) : Option Int32 :=
  match op with
  | mod => (Int32.ofInt? (a.toInt.tdiv b.toInt)).bind fun _ => Int32.ofInt? (a.toInt.tmod b.toInt)
  | _ => Int32.ofInt? (op.exact a.toInt b.toInt)

def applyInt32 (op : Arithmetic) (policy : OverflowPolicy) (a b : Int32) : Except ExprError Int32 :=
  if (op = div ∨ op = mod) ∧ b = 0 then .error (.divideByZero op.name .int32)
  else policy.resolve op.name (op.checked a b) (op.wrapped a b) (Int32.clamp (op.exact a.toInt b.toInt))

def applyDouble : Arithmetic → Double → Double → Double
  | add, a, b => a.add b
  | sub, a, b => a.sub b
  | mul, a, b => a.mul b
  | div, a, b => a.div b
  | mod, a, b => a.rem b

def applyDecimal (op : Arithmetic) (a b : Decimal) : Except ExprError Decimal :=
  if (op = div ∨ op = mod) ∧ b.isZero then .error (.divideByZero op.name .decimal)
  else
    match op with
    | add => .ok (a.add b)
    | sub => .ok (a.sub b)
    | mul => .ok (a.mul b)
    | div => .ok (a.div b)
    | mod => .ok (a.rem b)

/-- Applies the operator to two values of one kind. -/
def apply (op : Arithmetic) (policy : OverflowPolicy) : Value → Value → Except ExprError Value
  | .int32 a, .int32 b => (op.applyInt32 policy a b).map .int32
  | .double a, .double b => .ok (.double (op.applyDouble a b))
  | .decimal a, .decimal b => (op.applyDecimal a b).map .decimal
  | .string a, .string b =>
    if op = add then .ok (.string (a ++ b)) else .error (.unsupportedOperator op.name .string)
  | left, _ => .error (.unsupportedOperator op.name left.kind)

end Arithmetic

namespace UnaryOp

def apply : UnaryOp → OverflowPolicy → Value → Except ExprError Value
  | not, _, .boolean b => .ok (.boolean !b)
  | negate, policy, .int32 n =>
    (policy.resolve negate.name (Int32.ofInt? (-n.toInt)) (-n) (Int32.clamp (-n.toInt))).map .int32
  | negate, _, .double d => .ok (.double d.neg)
  | negate, _, .decimal d => .ok (.decimal d.neg)
  | op, _, value => .error (.unsupportedOperator op.name value.kind)

end UnaryOp

end ReportEngine
