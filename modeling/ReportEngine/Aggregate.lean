import ReportEngine.Decimal.Arithmetic
import ReportEngine.Text.Blank
import ReportEngine.Value.Order

/-! Aggregates over the rows of a dataset. Empty values count for none of them, and sums are kept as
decimals, so that mixed numbers lose nothing. -/

namespace ReportEngine

inductive AggregateFn where
  | sum
  | count
  | min
  | max
  | avg
  | first
  | last
deriving DecidableEq, Repr

namespace AggregateFn

def all : List AggregateFn := [sum, count, min, max, avg, first, last]

def name : AggregateFn → String
  | sum => "Sum"
  | count => "Count"
  | min => "Min"
  | max => "Max"
  | avg => "Avg"
  | first => "First"
  | last => "Last"

def ofName? (text : String) : Option AggregateFn :=
  all.find? fun fn => Text.eqIgnoringCase fn.name.toList text.toList

def resultKind : AggregateFn → Kind → Kind
  | sum, _ | avg, _ => .decimal
  | count, _ => .int32
  | min, input | max, input | first, input | last, input => input

end AggregateFn

structure Accumulator where
  fn : AggregateFn
  count : Nat
  sum : Decimal
  selected : Option Value

namespace Accumulator

def start (fn : AggregateFn) : Accumulator := ⟨fn, 0, .zero, none⟩

/-- Takes a value if it compares with the selected one as wanted, or if it is the first. -/
def selectBy (wanted : Ordering) (selected : Option Value) (value : Value) : Value :=
  match selected with
  | none => value
  | some current => if value.compare current = some wanted then value else current

def take (acc : Accumulator) (value : Value) : Except ExprError Accumulator :=
  let selecting := fun (value : Value) =>
    { acc with count := acc.count + 1, selected := some value }
  match acc.fn with
  | .sum | .avg =>
    value.toDecimal.map fun addend =>
      { acc with count := acc.count + 1, sum := acc.sum.accumulate addend }
  | .count => .ok { acc with count := acc.count + 1 }
  | .first => .ok (selecting (acc.selected.getD value))
  | .last => .ok (selecting value)
  | .min => .ok (selecting (selectBy .lt acc.selected value))
  | .max => .ok (selecting (selectBy .gt acc.selected value))

/-- Takes in a value. The accumulator is as before if that fails. -/
def push (acc : Accumulator) (value : Value) : Except ExprError Accumulator :=
  if value = .empty then .ok acc else acc.take value

/-- The aggregate of what was taken in. Over nothing it is empty, except for a count. -/
def finish (acc : Accumulator) : Except ExprError Value :=
  if acc.fn = .count then
    match Int32.ofInt? acc.count with
    | some n => .ok (.int32 n)
    | none => .error (.overflow "count" .int32)
  else if acc.count = 0 then .ok .empty
  else
    match acc.fn with
    | .sum => .ok (.decimal acc.sum)
    | .avg => .ok (.decimal (acc.sum.div (.ofInt acc.count)))
    | _ => .ok (acc.selected.getD .empty)

end Accumulator

end ReportEngine
