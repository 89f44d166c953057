/-! The properties of a custom item as its definition writes them. -/

namespace ReportEngine

structure Property where
  name : String
  value : String
deriving DecidableEq, Repr

/-- Properties in the order in which their names were first set. -/
structure Properties where
  entries : List Property
deriving DecidableEq, Repr

namespace Properties

def empty : Properties := ⟨[]⟩

def get? (properties : Properties) (name : String) : Option String :=
  (properties.entries.find? fun property => property.name == name).map Property.value

/-- Replaces the first entry of a name, or appends one. -/
def setEntry (name value : String) : List Property → List Property
  | [] => [⟨name, value⟩]
  | property :: rest =>
    if property.name == name then ⟨property.name, value⟩ :: rest
    else property :: setEntry name value rest

/-- Sets a property, in place if its name is already there. -/
def set (properties : Properties) (name value : String) : Properties :=
  ⟨setEntry name value properties.entries⟩

def ofList (pairs : List (String × String)) : Properties :=
  pairs.foldl (fun properties (name, value) => properties.set name value) empty

end Properties

end ReportEngine
