import ReportEngine.Kind

/-! Operators and what they are defined over. -/

namespace ReportEngine

inductive Arithmetic where
  | add
  | sub
  | mul
  | div
  | mod
deriving DecidableEq, Repr

namespace Arithmetic

def name : Arithmetic → String
  | add => "plus"
  | sub => "minus"
  | mul => "mult"
  | div => "div"
  | mod => "mod"

def symbol : Arithmetic → String
  | add => "+"
  | sub => "-"
  | mul => "*"
  | div => "/"
  | mod => "Mod"

/-- Numbers have all of arithmetic; texts can be joined. -/
def supports (op : Arithmetic) (kind : Kind) : Bool :=
  kind.isNumeric || (op == add && kind == .string)

end Arithmetic

inductive Comparison where
  | eq
  | ne
  | lt
  | le
  | gt
  | ge
deriving DecidableEq, Repr

namespace Comparison

def name : Comparison → String
  | eq => "eq"
  | ne => "ne"
  | lt => "lt"
  | le => "lte"
  | gt => "gt"
  | ge => "gte"

def symbol : Comparison → String
  | eq => "="
  | ne => "<>"
  | lt => "<"
  | le => "<="
  | gt => ">"
  | ge => ">="

/-- Decides a comparison from the order of its operands. Operands without an order are unequal, and
nothing else. -/
def holds : Comparison → Option Ordering → Bool
  | eq, order => order == some .eq
  | ne, order => order != some .eq
  | lt, order => order == some .lt
  | le, order => order == some .lt || order == some .eq
  | gt, order => order == some .gt
  | ge, order => order == some .gt || order == some .eq

end Comparison

inductive BinaryOp where
  | arithmetic (op : Arithmetic)
  | comparison (test : Comparison)
deriving DecidableEq, Repr

namespace BinaryOp

def all : List BinaryOp :=
  [.arithmetic .add, .arithmetic .sub, .arithmetic .mul, .arithmetic .div, .arithmetic .mod,
    .comparison .eq, .comparison .ne, .comparison .lt, .comparison .le, .comparison .gt,
    .comparison .ge]

def name : BinaryOp → String
  | arithmetic op => op.name
  | comparison test => test.name

def symbol : BinaryOp → String
  | arithmetic op => op.symbol
  | comparison test => test.symbol

def ofName? (text : String) : Option BinaryOp := all.find? fun op => op.name == text

def isComparison : BinaryOp → Bool
  | comparison _ => true
  | arithmetic _ => false

def supports : BinaryOp → Kind → Bool
  | arithmetic op, kind => op.supports kind
  | comparison _, kind => kind.isComparable

def resultKind : BinaryOp → Kind → Kind
  | arithmetic _, operandKind => operandKind
  | comparison _, _ => .boolean

theorem ofName?_name (op : BinaryOp) : ofName? op.name = some op := by
  cases op with
  | arithmetic op => cases op <;> decide
  | comparison test => cases test <;> decide

end BinaryOp

inductive UnaryOp where
  | negate
  | not
deriving DecidableEq, Repr

namespace UnaryOp

def all : List UnaryOp := [negate, not]

def name : UnaryOp → String
  | negate => "neg"
  | not => "not"

def ofName? (text : String) : Option UnaryOp := all.find? fun op => op.name == text

def supports : UnaryOp → Kind → Bool
  | negate, kind => kind.isNumeric
  | not, kind => kind == .boolean

theorem ofName?_name (op : UnaryOp) : ofName? op.name = some op := by
  cases op <;> decide

end UnaryOp

inductive LogicalOp where
  | and
  | or
deriving DecidableEq, Repr

namespace LogicalOp

def all : List LogicalOp := [.and, .or]

def name : LogicalOp → String
  | and => "and"
  | or => "or"

def ofName? (text : String) : Option LogicalOp := all.find? fun op => op.name == text

/-- The left operand that decides the result on its own. -/
def deciding : LogicalOp → Bool
  | and => false
  | or => true

theorem ofName?_name (op : LogicalOp) : ofName? op.name = some op := by
  cases op <;> decide

end LogicalOp

/-- What becomes of a 32-bit result that does not fit. -/
inductive OverflowPolicy where
  | wrap
  | trap
  | saturate
deriving DecidableEq, Repr, Inhabited

namespace OverflowPolicy

def all : List OverflowPolicy := [wrap, trap, saturate]

def name : OverflowPolicy → String
  | wrap => "wrap"
  | trap => "trap"
  | saturate => "saturate"

def ofName? (text : String) : Option OverflowPolicy := all.find? fun policy => policy.name == text

theorem ofName?_name (policy : OverflowPolicy) : ofName? policy.name = some policy := by
  cases policy <;> decide

end OverflowPolicy

end ReportEngine
