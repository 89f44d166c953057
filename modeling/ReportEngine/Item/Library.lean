import ReportEngine.Config.Settings
import ReportEngine.Item.Protocol

/-! Extensions that come out of libraries. A library says which engine versions it is made for, and
makes the extension of an identifier. -/

namespace ReportEngine

variable {σ : Type}

/-- What a library exports, as far as it exports it. -/
structure Library (σ : Type) where
  requirement : Option Requirement
  loader : Option (Uuid → Except EngineError (Extension σ))

namespace Library

def ofExtensions (requirement : Requirement) (extensions : List (Extension σ)) : Library σ where
  requirement := some requirement
  loader := some fun uuid =>
    match extensions.find? fun extension => extension.uuid == uuid with
    | some extension => .ok extension
    | none => .error (.extensionNotFound uuid.text)

end Library

abbrev Libraries (σ : Type) := String → Option (Library σ)

namespace ExtensionEntry

/-- Loads the extension of an entry, for an engine of a version. The library is asked for its
requirement before anything else, and must answer with the extension of the entry's identifier. -/
def load (entry : ExtensionEntry) (libraries : Libraries σ) (version : Version) :
    Except EngineError (Extension σ) := do
  let missing := EngineError.extensionLoad entry.path entry.name
  let some library := libraries entry.path | .error missing
  let some requirement := library.requirement | .error missing
  if !requirement.admits version then
    .error (.incompatible entry.path entry.name version requirement)
  else
    let some loader := library.loader | .error missing
    let extension ← loader entry.uuid
    if extension.uuid = entry.uuid then .ok extension
    else
      .error (.unknown ("Extension '" ++ entry.name ++ "' answered with UUID " ++ extension.uuid.text ++
        " instead of " ++ entry.uuid.text))

end ExtensionEntry

namespace Configuration

def entry (configuration : Configuration) (name : String) : Except EngineError ExtensionEntry :=
  match configuration.find? name with
  | some entry => .ok entry
  | none => .error (.extensionNotFound name)

def loadExtension (configuration : Configuration) (libraries : Libraries σ) (name : String)
    (version : Version) : Except EngineError (Extension σ) :=
  (configuration.entry name).bind fun entry => entry.load libraries version

end Configuration

end ReportEngine
