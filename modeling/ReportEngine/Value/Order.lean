import ReportEngine.Value.Convert

/-! How values compare: by order within a kind and across numeric kinds, by size, and in every detail. -/

namespace ReportEngine.Value

/-- Orders values of different numeric kinds as decimals where both have one, as doubles otherwise. -/
def compareNumbers (left right : Value) : Option Ordering :=
  match left.toDecimal, right.toDecimal with
  | .ok a, .ok b => some (a.compare b)
  | _, _ =>
    match left.toDouble, right.toDouble with
    | .ok a, .ok b => a.compare b
    | _, _ => none

/-- Orders values of one kind, and numbers of any kind. The empty value comes before all others. -/
def compare : Value → Value → Option Ordering
  | empty, empty => some .eq
  | empty, _ => some .lt
  | _, empty => some .gt
  | boolean a, boolean b => some (Ord.compare a b)
  | int32 a, int32 b => some (Ord.compare a.toInt b.toInt)
  | double a, double b => a.compare b
  | decimal a, decimal b => some (a.compare b)
  | string a, string b => some (Ord.compare a b)
  | dateTime a, dateTime b => some (a.compare b)
  | a, b => if a.kind.isNumeric && b.kind.isNumeric then compareNumbers a b else none

/-- Equality within a kind. Doubles and decimals are equal by size, so `nan` is not equal to itself. -/
def equal : Value → Value → Bool
  | double a, double b => a.compare b == some .eq
  | decimal a, decimal b => a.equal b
  | a, b => a == b

/-- Equality in every detail that can be observed: doubles by sign, decimals by displayed text. -/
def identical : Value → Value → Bool
  | decimal a, decimal b => a.equal b && a.toText == b.toText
  | a, b => a == b

end ReportEngine.Value
