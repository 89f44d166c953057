/-! The seven kinds an expression can declare, and their names. -/

namespace ReportEngine

/-- What an expression promises about its values. `variant` promises nothing. -/
inductive Kind where
  | boolean
  | int32
  | double
  | decimal
  | string
  | dateTime
  | variant
deriving DecidableEq, Repr, Inhabited

namespace Kind

def all : List Kind := [boolean, int32, double, decimal, string, dateTime, variant]

def name : Kind → String
  | boolean => "boolean"
  | int32 => "int32"
  | double => "double"
  | decimal => "decimal"
  | string => "string"
  | dateTime => "datetime"
  | variant => "variant"

def ofName? (text : String) : Option Kind :=
  all.find? fun kind => kind.name == text

def isNumeric : Kind → Bool
  | int32 | double | decimal => true
  | _ => false

def isComparable : Kind → Bool
  | variant => false
  | _ => true

theorem ofName?_name (kind : Kind) : ofName? kind.name = some kind := by
  cases kind <;> decide

end Kind

end ReportEngine
