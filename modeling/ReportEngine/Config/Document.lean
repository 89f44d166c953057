import ReportEngine.Config.Settings
import ReportEngine.EngineError
import ReportEngine.Toml.Reader
import ReportEngine.Toml.Writer

/-! Configurations as documents. Keys that have no meaning are passed over, and what is not set has
its default. The elements of an array beyond those that have a meaning are not even looked at. -/

namespace ReportEngine

open Toml

namespace Toml

namespace Node

/-- A count of 64 bits. -/
def count? : Node → Option Nat
  | .integer n => if 0 ≤ n ∧ n < 0x10000000000000000 then some n.toNat else none
  | _ => none

def text? : Node → Option String
  | .string text => some text
  | _ => none

def byte? : Node → Option UInt8
  | .integer n => if 0 ≤ n ∧ n < 256 then some (UInt8.ofNat n.toNat) else none
  | _ => none

/-- An identifier is a text, or an array that begins with its sixteen bytes. -/
def uuid? : Node → Option Uuid
  | .string text => Uuid.read? text.toList
  | .array items => ((items.take 16).mapM byte?).bind Uuid.ofBytes?
  | _ => none

end Node

/-- Decodes a value, or takes the default where there is none. -/
def orDefault {α : Type} (default : α) (decode : Node → Option α) : Option Node → Option α
  | none => some default
  | some node => decode node

theorem orDefault_some {α : Type} (default : α) (decode : Node → Option α) (node : Node) :
    orDefault default decode (some node) = decode node := rfl

/-- Whether the entries under other keys than those with a meaning can be passed over. -/
def passesOver (known : List String) (entries : Entries) : Bool :=
  entriesSound (entries.filter fun (key, _) => !known.contains key)

theorem guard_passesOver {α : Type} {known : List String} {entries : Entries} (passes : passesOver known entries = true)
    (decoded : Option α) : (do guard (passesOver known entries); decoded) = decoded := by
  rw [passes]
  rfl

theorem eq_some_of_guard {α : Type} {known : List String} {entries : Entries} {decoded : Option α} {value : α}
    (read : (do guard (passesOver known entries); decoded) = some value) : decoded = some value := by
  cases passes : passesOver known entries with
  | false => rw [passes] at read; cases read
  | true => rwa [guard_passesOver passes] at read

end Toml

namespace RenderSettings

/-- Settings from their values, any of which may be missing. -/
def ofItems? (workers marker timeout : Option Node) : Option RenderSettings := do
  let workerThreads ← orDefault default.workerThreads Node.count? workers
  let errorMarker ← orDefault default.errorMarker Node.text? marker
  let extensionTimeout ← orDefault default.extensionTimeout (fun node => node.count?.map some) timeout
  some ⟨workerThreads, errorMarker, extensionTimeout⟩

def ofEntries? (entries : Entries) : Option RenderSettings := do
  guard (passesOver ["worker_threads", "error_marker", "extension_timeout_ms"] entries)
  ofItems? (entries.lookup "worker_threads") (entries.lookup "error_marker")
    (entries.lookup "extension_timeout_ms")

/-- Settings are a table, or an array of values in order. A date sets nothing. -/
def ofNode? : Node → Option RenderSettings
  | .table _ entries => ofEntries? entries
  | .array items => ofItems? items[0]? items[1]? items[2]?
  | .dateTime => some default
  | _ => none

/-- Without a timeout there is no line for it. -/
def lines (settings : RenderSettings) : List Line :=
  [.header "render", .assign "worker_threads" (.natural settings.workerThreads),
    .assign "error_marker" (.string settings.errorMarker)] ++
  settings.extensionTimeout.toList.map fun milliseconds =>
    .assign "extension_timeout_ms" (.natural milliseconds)

end RenderSettings

namespace ExtensionEntry

def ofItems? (uuid path name : Option Node) : Option ExtensionEntry := do
  some ⟨← (← uuid).uuid?, ← (← path).text?, ← (← name).text?⟩

def ofEntries? (entries : Entries) : Option ExtensionEntry := do
  guard (passesOver ["uuid", "path", "name"] entries)
  ofItems? (entries.lookup "uuid") (entries.lookup "path") (entries.lookup "name")

/-- An extension is a table, or an array of values in order. -/
def ofNode? : Node → Option ExtensionEntry
  | .table _ entries => ofEntries? entries
  | .array items => ofItems? items[0]? items[1]? items[2]?
  | _ => none

def listOfNode? : Node → Option (List ExtensionEntry)
  | .array items => items.mapM ofNode?
  | .tables items => items.mapM ofEntries?
  | _ => none

/-- An entry is a table of its own, with an empty line after it. -/
def lines (entry : ExtensionEntry) : List Line :=
  [.arrayHeader "ext", .assign "uuid" (.string entry.uuid.text), .assign "path" (.string entry.path),
    .assign "name" (.string entry.name), .blank]

def linesOfList : List ExtensionEntry → List Line
  | [] => [.assign "ext" .emptyArray, .blank]
  | entries => entries.flatMap lines

end ExtensionEntry

namespace Configuration

def ofEntries? (entries : Entries) : Option Configuration := do
  guard (passesOver ["ext", "render"] entries)
  let extensions ← orDefault [] ExtensionEntry.listOfNode? (entries.lookup "ext")
  let render ← orDefault .default RenderSettings.ofNode? (entries.lookup "render")
  some ⟨extensions, render⟩

def read (text file : String) : Except EngineError Configuration :=
  match (Toml.read? text.toList).bind ofEntries? with
  | some configuration => .ok configuration
  | none => .error (.manifest file)

def lines (configuration : Configuration) : List Line :=
  ExtensionEntry.linesOfList configuration.extensions ++ configuration.render.lines

def write (configuration : Configuration) : String := String.ofList (writeLines configuration.lines)

end Configuration

end ReportEngine
