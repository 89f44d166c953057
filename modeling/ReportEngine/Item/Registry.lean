import ReportEngine.Item.Protocol

/-! The extensions that report definitions can refer to, by type name. -/

namespace ReportEngine

variable {σ : Type}

/-- A registered extension, and the file of the library it was loaded from, if any. -/
structure Registration (σ : Type) where
  extension : Extension σ
  library : Option String

/-- Registrations in the order of their names, of which none occurs twice. -/
structure Registry (σ : Type) where
  entries : List (Registration σ)

namespace Registry

def empty : Registry σ := ⟨[]⟩

instance : Inhabited (Registry σ) := ⟨empty⟩

/-- Puts a registration in its place, instead of one of the same name. -/
def insert (entry : Registration σ) : List (Registration σ) → List (Registration σ)
  | [] => [entry]
  | other :: rest =>
    match compare entry.extension.name other.extension.name with
    | .lt => entry :: other :: rest
    | .eq => entry :: rest
    | .gt => other :: insert entry rest

def register (registry : Registry σ) (extension : Extension σ) : Registry σ :=
  ⟨insert ⟨extension, none⟩ registry.entries⟩

def registerLoaded (registry : Registry σ) (extension : Extension σ) (file : String) : Registry σ :=
  ⟨insert ⟨extension, some file⟩ registry.entries⟩

def find? (registry : Registry σ) (name : String) : Option (Registration σ) :=
  registry.entries.find? fun entry => entry.extension.name == name

def get? (registry : Registry σ) (name : String) : Option (Extension σ) :=
  (registry.find? name).map Registration.extension

def contains (registry : Registry σ) (name : String) : Bool := (registry.find? name).isSome

def isLoaded (registry : Registry σ) (name : String) : Bool :=
  (registry.find? name).any fun entry => entry.library.isSome

def names (registry : Registry σ) : List String :=
  registry.entries.map fun entry => entry.extension.name

def unregister (registry : Registry σ) (name : String) : Registry σ :=
  ⟨registry.entries.filter fun entry => entry.extension.name != name⟩

/-- A new item of a type. It goes on answering as its extension did when it was created. -/
def create (registry : Registry σ) (name : String) : Except EngineError (Guard σ) :=
  match registry.get? name with
  | none => .error (.extensionNotFound name)
  | some extension => .ok ⟨name, extension.fresh, extension.protocol⟩

theorem get?_empty (name : String) : (empty : Registry σ).get? name = none := rfl

/-- A registration is found under its name, whatever stood there. -/
private theorem find?_insert (entry : Registration σ) (name : String) (entries : List (Registration σ)) :
    (insert entry entries).find? (fun other => other.extension.name == name) =
      if entry.extension.name = name then some entry
      else entries.find? fun other => other.extension.name == name := by
  induction entries with
  | nil => by_cases same : entry.extension.name = name <;> simp [insert, same]
  | cons other rest ih =>
    rw [insert]
    split
    next => by_cases same : entry.extension.name = name <;> simp [same]
    next equal =>
      have replaced := Std.compare_eq_iff_eq.mp equal
      by_cases same : entry.extension.name = name
      · simp [same]
      · have differs : other.extension.name ≠ name := replaced ▸ same
        simp [same, differs]
    next greater =>
      rw [List.find?_cons, List.find?_cons, ih]
      by_cases same : entry.extension.name = name
      · have differs : (other.extension.name == name) = false := by
          apply beq_false_of_ne
          intro found
          rw [same, found, Std.compare_self] at greater
          cases greater
        rw [differs, if_pos same]
      · rw [if_neg same, if_neg same]

theorem get?_register (registry : Registry σ) (extension : Extension σ) (name : String) :
    (registry.register extension).get? name =
      if extension.name = name then some extension else registry.get? name := by
  rw [get?, find?, register, find?_insert]
  split
  next => rfl
  next => rfl

theorem get?_unregister (registry : Registry σ) (name other : String) :
    (registry.unregister name).get? other = if name = other then none else registry.get? other := by
  rw [get?, find?, unregister, List.find?_filter]
  split
  next same =>
    subst same
    rw [List.find?_eq_none.mpr, Option.map_none]
    intro entry _
    simp
  next differs =>
    rw [get?, find?]
    congr 2
    funext entry
    by_cases found : entry.extension.name = other
    · simp [found, Ne.symm differs]
    · simp [found]

end Registry

end ReportEngine
