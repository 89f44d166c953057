import ReportEngine.Value.Basic

/-! Values bound to names. Binding a name again replaces what it was bound to. -/

namespace ReportEngine

/-- The latest binding of each name, newest first. -/
structure Bindings where
  entries : List (String × Value)
deriving DecidableEq

namespace Bindings

def empty : Bindings := ⟨[]⟩

instance : Inhabited Bindings := ⟨empty⟩

def get? (bindings : Bindings) (name : String) : Option Value := bindings.entries.lookup name

def insert (bindings : Bindings) (name : String) (value : Value) : Bindings :=
  ⟨(name, value) :: bindings.entries.filter fun entry => entry.1 != name⟩

def ofList (pairs : List (String × Value)) : Bindings :=
  pairs.foldl (fun bindings (name, value) => bindings.insert name value) empty

theorem get?_empty (name : String) : empty.get? name = none := rfl

theorem get?_insert (bindings : Bindings) (name other : String) (value : Value) :
    (bindings.insert name value).get? other =
      if other = name then some value else bindings.get? other := by
  obtain ⟨entries⟩ := bindings
  by_cases same : other = name
  · simp [insert, get?, same]
  · have differs : (other == name) = false := by simpa using same
    simp only [insert, get?, List.lookup_cons, differs, same, if_false]
    induction entries with
    | nil => rfl
    | cons entry rest ih =>
      obtain ⟨key, bound⟩ := entry
      by_cases kept : key = name
      · simpa [List.lookup_cons, kept, differs] using ih
      · simp [List.lookup_cons, kept, ih]

end Bindings

end ReportEngine
