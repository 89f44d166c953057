/-! Documents of keys and values, grouped in tables. -/

namespace ReportEngine.Toml

/-- How a table came about, which decides what may still be added to it. -/
inductive TableState where
  /-- Only on the way to another table's header. -/
  | implicit
  /-- By a dotted key. -/
  | dotted
  /-- By a header of its own. -/
  | headed
  /-- Written out in braces, complete from the start. -/
  | inline
deriving DecidableEq, Repr

/-- A value. Floats and dates are checked when they are read, but nobody asks for what they denote. -/
inductive Node where
  | string (text : String)
  | integer (value : Int)
  | boolean (value : Bool)
  | float
  /-- What is spelled like a number and denotes none that can be held. It is refused where it is looked
  at, and not before. -/
  | badNumber
  | dateTime
  | array (items : List Node)
  | table (state : TableState) (entries : List (String × Node))
  /-- Tables that share a header in double brackets. -/
  | tables (items : List (List (String × Node)))

instance : Inhabited Node := ⟨.boolean false⟩

abbrev Entries := List (String × Node)

mutual

/-- Whether every number in a value denotes one. -/
def Node.isSound : Node → Bool
  | .badNumber => false
  | .array items => itemsSound items
  | .table _ entries => entriesSound entries
  | .tables items => tablesSound items
  | _ => true

def itemsSound : List Node → Bool
  | [] => true
  | item :: rest => item.isSound && itemsSound rest

def entriesSound : List (String × Node) → Bool
  | [] => true
  | (_, value) :: rest => value.isSound && entriesSound rest

def tablesSound : List (List (String × Node)) → Bool
  | [] => true
  | entries :: rest => entriesSound entries && tablesSound rest

end

inductive Statement where
  | header (path : List String)
  | arrayHeader (path : List String)
  | assign (path : List String) (value : Node)

end ReportEngine.Toml
