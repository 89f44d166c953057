import ReportEngine.Error
import ReportEngine.Value.Basic

/-! Rows of a dataset and the columns that name their fields. -/

namespace ReportEngine

/-- What an expression sees of the current record: the field at an index, if there is one. -/
abbrev Fields := Nat → Option Value

structure Row where
  position : Nat
  values : List Value
deriving DecidableEq, Inhabited

namespace Row

def empty : Row := ⟨0, []⟩

def fields (row : Row) : Fields := fun index => row.values[index]?

def advance (row : Row) (values : List Value) : Row := ⟨row.position + 1, values⟩

end Row

structure FieldDef where
  name : String
  kind : Kind
deriving DecidableEq, Repr

structure FieldRef where
  index : Nat
  name : String
  kind : Kind
deriving DecidableEq, Repr

/-- The columns of a dataset, in order. Names may repeat; the first of a name is the one found. -/
structure Schema where
  fields : List FieldDef
deriving DecidableEq, Repr, Inhabited

namespace Schema

def empty : Schema := ⟨[]⟩

def push (schema : Schema) (name : String) (kind : Kind) : Schema :=
  ⟨schema.fields ++ [⟨name, kind⟩]⟩

def size (schema : Schema) : Nat := schema.fields.length

def indexOf? (schema : Schema) (name : String) : Option Nat :=
  schema.fields.findIdx? fun field => field.name == name

def field? (schema : Schema) (index : Nat) : Option FieldDef := schema.fields[index]?

def fieldLabel (name : String) : String := "Fields!" ++ name

def fieldRef (schema : Schema) (name : String) : Except ExprError FieldRef :=
  match schema.indexOf? name with
  | none => .error (.unboundReference (fieldLabel name))
  | some index =>
    match schema.field? index with
    | none => .error (.unboundReference (fieldLabel name))
    | some field => .ok ⟨index, field.name, field.kind⟩

end Schema

end ReportEngine
