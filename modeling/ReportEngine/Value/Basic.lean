import ReportEngine.DateTime.Text
import ReportEngine.Decimal.Nearest
import ReportEngine.Kind

/-! Values that evaluation produces, and how they are displayed. -/

namespace ReportEngine

/-- A value. `empty` stands for none, such as the result of a switch that matches nothing. -/
inductive Value where
  | empty
  | boolean (value : Bool)
  | int32 (value : Int32)
  | double (value : Double)
  | decimal (value : Decimal)
  | string (text : String)
  | dateTime (value : DateTime)
deriving DecidableEq, Inhabited

namespace Value

/-- The kind a value is seen to have. The empty value could be of any. -/
def kind : Value → Kind
  | empty => .variant
  | boolean _ => .boolean
  | int32 _ => .int32
  | double _ => .double
  | decimal _ => .decimal
  | string _ => .string
  | dateTime _ => .dateTime

def chars : Value → List Char
  | empty => []
  | boolean true => "True".toList
  | boolean false => "False".toList
  | int32 value => Text.digitsOfInt value.toInt
  | double value => value.toText
  | decimal value => value.toText
  | string text => text.toList
  | dateTime value => value.toText

/-- The text a value is displayed as, the same in every locale. -/
def display (value : Value) : String := String.ofList value.chars

end Value

end ReportEngine
