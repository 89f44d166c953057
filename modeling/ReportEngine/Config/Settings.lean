import ReportEngine.Uuid

/-! What the engine is configured with. -/

namespace ReportEngine

structure RenderSettings where
  /-- Workers that evaluate rows at the same time. At least one is used. -/
  workerThreads : Nat
  /-- Shown in place of a cell whose evaluation failed. -/
  errorMarker : String
  /-- Milliseconds that a call to a custom item may take. -/
  extensionTimeout : Option Nat
deriving DecidableEq, Repr

namespace RenderSettings

def default : RenderSettings := ⟨4, "#Error", none⟩

instance : Inhabited RenderSettings := ⟨default⟩

end RenderSettings

structure ExtensionEntry where
  uuid : Uuid
  path : String
  name : String
deriving DecidableEq

structure Configuration where
  extensions : List ExtensionEntry
  render : RenderSettings
deriving DecidableEq

namespace Configuration

def default : Configuration := ⟨[], .default⟩

instance : Inhabited Configuration := ⟨default⟩

def find? (configuration : Configuration) (name : String) : Option ExtensionEntry :=
  configuration.extensions.find? fun entry => entry.name == name

end Configuration

end ReportEngine
