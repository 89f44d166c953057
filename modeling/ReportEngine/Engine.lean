import ReportEngine.Config.Document
import ReportEngine.Item.Library
import ReportEngine.Report.Run

/-! An engine: a configuration, the extensions it enables, and the application that uses it. -/

namespace ReportEngine

def engineVersion : Version := .release 0 1 0

/-- What an application hands to the engine for extensions to find, by type. -/
inductive Parameter where
  | number (value : Int)
  | text (value : String)
deriving DecidableEq, Repr

namespace Parameter

def number? : Parameter → Option Int
  | number value => some value
  | text _ => none

def text? : Parameter → Option String
  | text value => some value
  | number _ => none

end Parameter

structure Application where
  name : String
  version : Version
deriving DecidableEq

/-- What an engine is made from. Without a configuration, the file at the default place is read. -/
structure EngineRequest where
  application : Application
  enabled : List String
  configuration : Option Configuration
  parameters : List Parameter

variable {σ : Type}

structure Engine (σ : Type) where
  version : Version
  application : Application
  configuration : Configuration
  registry : Registry σ
  parameters : List Parameter

structure ConfigFile where
  path : String
  text : Option String

namespace ConfigFile

/-- The configuration in the file, or the default one if there is no file. -/
def configuration (file : ConfigFile) : Except EngineError Configuration :=
  match file.text with
  | none => .ok .default
  | some text => Configuration.read text file.path

end ConfigFile

namespace Engine

/-- Loads an enabled extension. It is registered under its own name, which may not be the one it is
enabled by. -/
private def enable (configuration : Configuration) (libraries : Libraries σ) (registry : Registry σ)
    (name : String) : Except EngineError (Registry σ) := do
  let entry ← configuration.entry name
  let extension ← entry.load libraries engineVersion
  return registry.registerLoaded extension entry.path

def create (request : EngineRequest) (file : ConfigFile) (libraries : Libraries σ) :
    Except EngineError (Engine σ) := do
  let configuration ←
    match request.configuration with
    | some configuration => .ok configuration
    | none => file.configuration
  let registry ← request.enabled.foldlM (enable configuration libraries) .empty
  return ⟨engineVersion, request.application, configuration, registry, request.parameters⟩

def register (engine : Engine σ) (extension : Extension σ) : Engine σ :=
  { engine with registry := engine.registry.register extension }

def number? (engine : Engine σ) : Option Int := engine.parameters.findSome? Parameter.number?

def text? (engine : Engine σ) : Option String := engine.parameters.findSome? Parameter.text?

def prepare (engine : Engine σ) (definition : ReportDefinition) : Job :=
  .prepare definition engine.configuration.render

def render (engine : Engine σ) (job : Job) (context : Context) (rows : List Row) : Run :=
  job.run context rows engine.registry

end Engine

end ReportEngine
