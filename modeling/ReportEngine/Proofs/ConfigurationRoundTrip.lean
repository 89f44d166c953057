import ReportEngine.Config.Storage
import ReportEngine.Proofs.TomlLines

/-! A configuration that is written is read back. Texts may hold any characters, and counts are those of 64
bits. -/

namespace ReportEngine

namespace Toml

/-- Statements that lead from one place in a document to another, whatever stands after them. -/
def Adds (current : List String) (document : Entries) (statements : List Statement) (current' : List String)
    (document' : Entries) : Prop :=
  ∀ rest, addAll current document (statements ++ rest) = addAll current' document' rest

namespace Adds

variable {current current' current'' : List String} {document document' document'' : Entries}
  {statements more : List Statement}

theorem nil : Adds current document [] current document := fun _ => rfl

theorem single {statement : Statement} (added : statement.add current document = some (current', document')) :
    Adds current document [statement] current' document' := by
  intro rest
  rw [List.singleton_append, addAll, added, Option.bind_some]

theorem append (first : Adds current document statements current' document')
    (second : Adds current' document' more current'' document'') :
    Adds current document (statements ++ more) current'' document'' := by
  intro rest
  rw [List.append_assoc, first, second]

theorem document_eq (adds : Adds [] [] statements current document) : Toml.document statements = some document := by
  have whole := adds []
  rw [List.append_nil] at whole
  exact whole

end Adds

/-- A header under which assignments go to one table, the place of which in the document is known. -/
def Reaches (header : List String) (place : Entries → Entries) : Prop :=
  ∀ (change : Entries → Option Entries) (entries : Entries),
    within .header (fun _ => change) .headed header (place entries) = (change entries).map place

theorem reaches_root : Reaches [] id := by
  intro change entries
  rw [within, Option.map_id, id, id]

variable {key : String} {document : Entries}

theorem reaches_last (fresh : key ∉ document.map Prod.fst) (items : List Entries) :
    Reaches [key] fun entries => document ++ [(key, .tables (items ++ [entries]))] := by
  intro change entries
  rw [within, alter_append fresh]
  simp only [alterLast_append, within, Option.map_map]
  rfl

theorem reaches_table (fresh : key ∉ document.map Prod.fst) :
    Reaches [key] fun entries => document ++ [(key, .table .headed entries)] := by
  intro change entries
  rw [within, alter_append fresh]
  simp only [Route.passes, if_true, within, Option.map_map]
  rfl

/-- Assignments of different keys, one after another, fill the table that they reach. -/
theorem Reaches.fill {header : List String} {place : Entries → Entries} (reaches : Reaches header place)
    (values : Entries) : ∀ front, ((front ++ values).map Prod.fst).Nodup →
      Adds header (place front) (values.map fun (key, value) => .assign [key] value) header (place (front ++ values)) := by
  induction values with
  | nil => intro front _; rw [List.append_nil]; exact .nil
  | cons entry values ih =>
    obtain ⟨key, value⟩ := entry
    intro front distinct
    have fresh : key ∉ front.map Prod.fst := by
      rw [List.map_append, List.nodup_append] at distinct
      exact fun member => distinct.2.2 key member key List.mem_cons_self rfl
    have added : (Statement.assign [key] value).add header (place front) =
        some (header, place (front ++ [(key, value)])) := by
      rw [Statement.add, reaches]
      simp [Toml.assign, splitLast?, define, alter_of_fresh fresh]
    have rest := ih (front ++ [(key, value)]) (by rwa [List.append_assoc])
    rw [List.append_assoc] at rest
    exact (Adds.single added).append rest

end Toml

open Toml

namespace ExtensionEntry

def entries (entry : ExtensionEntry) : Entries :=
  [("uuid", .string entry.uuid.text), ("path", .string entry.path), ("name", .string entry.name)]

private theorem isReadable_lines (entry : ExtensionEntry) : ∀ line ∈ entry.lines, line.IsReadable := by
  intro line member
  simp only [lines, List.mem_cons, List.not_mem_nil, or_false] at member
  rcases member with rfl | rfl | rfl | rfl | rfl
  · exact (by decide : IsBareKey "ext")
  · exact ⟨by decide, trivial⟩
  · exact ⟨by decide, trivial⟩
  · exact ⟨by decide, trivial⟩
  · trivial

theorem isReadable_linesOfList (extensions : List ExtensionEntry) : ∀ line ∈ linesOfList extensions, line.IsReadable := by
  intro line member
  cases extensions with
  | nil =>
    simp only [linesOfList, List.mem_cons, List.not_mem_nil, or_false] at member
    rcases member with rfl | rfl
    · exact ⟨by decide, trivial⟩
    · trivial
  | cons entry extensions =>
    obtain ⟨entry, _, member⟩ := List.mem_flatMap.mp member
    exact isReadable_lines entry line member

theorem ofEntries?_entries (entry : ExtensionEntry) : ofEntries? entry.entries = some entry := by
  have known : passesOver ["uuid", "path", "name"] entry.entries = true := by
    simp [passesOver, entries, entriesSound]
  have named : Uuid.read? entry.uuid.text.toList = some entry.uuid := by
    rw [Uuid.text, String.toList_ofList, Uuid.read?_chars]
  rw [ofEntries?, guard_passesOver known]
  simp [entries, List.lookup_cons, ofItems?, Node.uuid?, Node.text?, named]

/-- The document with some extensions in it, and nothing else. -/
def gathered : List Entries → Entries
  | [] => []
  | items => [("ext", .tables items)]

private theorem gathered_append (items : List Entries) (last : Entries) :
    gathered (items ++ [last]) = [] ++ [("ext", .tables (items ++ [last]))] := by
  cases items <;> rfl

private theorem adds_lines (entry : ExtensionEntry) (current : List String) (items : List Entries) :
    Adds current (gathered items) (entry.lines.filterMap Line.statement?) ["ext"] (gathered (items ++ [entry.entries])) := by
  have opened : (Statement.arrayHeader ["ext"]).add current (gathered items) =
      some (["ext"], gathered (items ++ [[]])) := by
    cases items <;> rfl
  have reaches : Reaches ["ext"] fun entries => gathered (items ++ [entries]) := by
    simp only [gathered_append]
    exact reaches_last List.not_mem_nil items
  have keys : ([] ++ entry.entries).map Prod.fst = ["uuid", "path", "name"] := rfl
  have distinct : (([] ++ entry.entries).map Prod.fst).Nodup := by
    rw [keys]
    decide
  exact (Adds.single opened).append (reaches.fill entry.entries [] distinct)

private theorem adds_flatMap (extensions : List ExtensionEntry) : ∀ current items, ∃ header,
    Adds current (gathered items) ((extensions.flatMap lines).filterMap Line.statement?) header
      (gathered (items ++ extensions.map entries)) := by
  induction extensions with
  | nil => exact fun current items => ⟨current, by rw [List.map_nil, List.append_nil]; exact .nil⟩
  | cons entry extensions ih =>
    intro current items
    obtain ⟨header, rest⟩ := ih ["ext"] (items ++ [entry.entries])
    refine ⟨header, ?_⟩
    rw [List.append_assoc] at rest
    rw [List.flatMap_cons, List.filterMap_append]
    exact (adds_lines entry current items).append rest

def nodeOfList : List ExtensionEntry → Node
  | [] => .array []
  | extensions => .tables (extensions.map entries)

theorem listOfNode?_nodeOfList (extensions : List ExtensionEntry) :
    listOfNode? (nodeOfList extensions) = some extensions := by
  have decoded : ∀ extensions : List ExtensionEntry, (extensions.map entries).mapM ofEntries? = some extensions := by
    intro extensions
    induction extensions with
    | nil => rfl
    | cons entry extensions ih => simp [ofEntries?_entries, ih]
  cases extensions with
  | nil => rfl
  | cons entry extensions => exact decoded (entry :: extensions)

theorem adds_linesOfList (extensions : List ExtensionEntry) : ∃ header,
    Adds [] [] ((linesOfList extensions).filterMap Line.statement?) header [("ext", nodeOfList extensions)] := by
  cases extensions with
  | nil => exact ⟨[], reaches_root.fill [("ext", .array [])] [] (by decide)⟩
  | cons entry extensions => exact adds_flatMap (entry :: extensions) [] []

end ExtensionEntry

namespace RenderSettings

/-- Whether the numbers are ones that 64 bits can hold. -/
structure Fits (settings : RenderSettings) : Prop where
  workers : settings.workerThreads < twoTo 64
  timeout : ∀ milliseconds ∈ settings.extensionTimeout, milliseconds < twoTo 64

def entries (settings : RenderSettings) : Entries :=
  [("worker_threads", .integer settings.workerThreads), ("error_marker", .string settings.errorMarker)] ++
    settings.extensionTimeout.toList.map fun milliseconds => ("extension_timeout_ms", .integer milliseconds)

theorem fits_default : RenderSettings.default.Fits := ⟨by decide, nofun⟩

private theorem twoTo_64 : twoTo 64 = 0x10000000000000000 := by decide

private theorem count?_integer {n : Nat} (held : n < twoTo 64) : Node.count? (.integer n) = some n := by
  have bound : (n : Int) < 0x10000000000000000 := by
    rw [twoTo_64] at held
    omega
  rw [Node.count?, if_pos ⟨Int.natCast_nonneg n, bound⟩, Int.toNat_natCast]

private theorem lt_of_count? {node : Node} {n : Nat} (read : node.count? = some n) : n < twoTo 64 := by
  cases node with
  | integer value =>
    rw [Node.count?] at read
    split at read
    next bound =>
      cases read
      rw [twoTo_64]
      omega
    next => cases read
  | _ => cases read

private theorem isHeld_natural {n : Nat} (held : n < twoTo 64) : (Scalar.natural n).IsHeld :=
  Nat.lt_trans held (by decide : twoTo 64 < twoTo 128)

theorem isReadable_lines {settings : RenderSettings} (fits : settings.Fits) :
    ∀ line ∈ settings.lines, line.IsReadable := by
  intro line member
  rcases List.mem_append.mp member with always | set
  · simp only [List.mem_cons, List.not_mem_nil, or_false] at always
    rcases always with rfl | rfl | rfl
    · exact (by decide : IsBareKey "render")
    · exact ⟨by decide, isHeld_natural fits.workers⟩
    · exact ⟨by decide, trivial⟩
  · obtain ⟨milliseconds, given, rfl⟩ := List.mem_map.mp set
    exact ⟨by decide, isHeld_natural (fits.timeout milliseconds (Option.mem_toList.mp given))⟩

private theorem ofEntries?_eq (settings : RenderSettings) : ofEntries? settings.entries =
    ofItems? (some (.integer settings.workerThreads)) (some (.string settings.errorMarker))
      (settings.extensionTimeout.map fun (milliseconds : Nat) => .integer milliseconds) := by
  have known : passesOver ["worker_threads", "error_marker", "extension_timeout_ms"] settings.entries = true := by
    cases timeout : settings.extensionTimeout <;> simp [passesOver, entries, entriesSound, timeout]
  have workers : settings.entries.lookup "worker_threads" = some (.integer settings.workerThreads) := by
    simp [entries]
  have marker : settings.entries.lookup "error_marker" = some (.string settings.errorMarker) := by
    simp [entries, List.lookup_cons]
  have timeout : settings.entries.lookup "extension_timeout_ms" =
      settings.extensionTimeout.map fun (milliseconds : Nat) => .integer milliseconds := by
    cases timeout : settings.extensionTimeout <;> simp [entries, List.lookup_cons, timeout]
  rw [ofEntries?, guard_passesOver known, workers, marker, timeout]

theorem ofEntries?_entries {settings : RenderSettings} (fits : settings.Fits) :
    ofEntries? settings.entries = some settings := by
  obtain ⟨workers, marker, timeout⟩ := settings
  rw [ofEntries?_eq, ofItems?, orDefault_some, orDefault_some, count?_integer fits.workers]
  cases timeout with
  | none => rfl
  | some milliseconds =>
    rw [Option.map_some, orDefault_some, count?_integer (fits.timeout milliseconds rfl)]
    rfl

theorem adds_lines (settings : RenderSettings) (current : List String) (extensions : Node) :
    Adds current [("ext", extensions)] (settings.lines.filterMap Line.statement?) ["render"]
      [("ext", extensions), ("render", .table .headed settings.entries)] := by
  have opened : (Statement.header ["render"]).add current [("ext", extensions)] =
      some (["render"], [("ext", extensions), ("render", .table .headed [])]) := rfl
  have reaches : Reaches ["render"] fun entries => [("ext", extensions)] ++ [("render", .table .headed entries)] :=
    reaches_table (by simp)
  have distinct : (([] ++ settings.entries).map Prod.fst).Nodup := by
    cases timeout : settings.extensionTimeout <;> simp [entries, timeout]
  have assigned : settings.lines.filterMap Line.statement? =
      [.header ["render"]] ++ settings.entries.map fun (key, value) => .assign [key] value := by
    cases timeout : settings.extensionTimeout <;> simp [entries, lines, timeout, Line.statement?, Scalar.node]
  rw [assigned]
  exact (Adds.single opened).append (reaches.fill settings.entries [] distinct)

private theorem fits_of_ofItems? {workers marker timeout : Option Node} {settings : RenderSettings}
    (read : ofItems? workers marker timeout = some settings) : settings.Fits := by
  simp only [ofItems?, Option.bind_eq_bind, Option.bind_eq_some_iff, Option.some.injEq] at read
  obtain ⟨count, counted, text, _, limit, limited, rfl⟩ := read
  constructor
  · cases workers with
    | none => cases counted; exact fits_default.workers
    | some node => exact lt_of_count? counted
  · intro milliseconds set
    cases timeout with
    | none => cases limited; cases set
    | some node =>
      obtain ⟨n, counted, rfl⟩ := Option.map_eq_some_iff.mp limited
      cases set
      exact lt_of_count? counted

theorem fits_of_ofNode? {node : Node} {settings : RenderSettings} (read : ofNode? node = some settings) :
    settings.Fits := by
  cases node with
  | table state entries =>
    exact fits_of_ofItems? (eq_some_of_guard read)
  | array items => exact fits_of_ofItems? read
  | dateTime => cases read; exact fits_default
  | _ => cases read

end RenderSettings

namespace Configuration

theorem fits_of_read {text file : String} {configuration : Configuration}
    (read : Configuration.read text file = .ok configuration) : configuration.render.Fits := by
  rw [Configuration.read] at read
  split at read
  next decoded =>
    cases read
    obtain ⟨entries, _, decoded⟩ := Option.bind_eq_some_iff.mp decoded
    have decoded := eq_some_of_guard decoded
    simp only [Option.bind_eq_bind, Option.bind_eq_some_iff, Option.some.injEq] at decoded
    obtain ⟨extensions, _, render, rendered, rfl⟩ := decoded
    cases found : entries.lookup "render" with
    | none => rw [found] at rendered; cases rendered; exact RenderSettings.fits_default
    | some node => rw [found] at rendered; exact RenderSettings.fits_of_ofNode? rendered
  next => cases read

private theorem isReadable_lines {configuration : Configuration} (fits : configuration.render.Fits) :
    ∀ line ∈ configuration.lines, line.IsReadable := by
  intro line member
  rcases List.mem_append.mp member with inExtensions | inRender
  · exact ExtensionEntry.isReadable_linesOfList _ line inExtensions
  · exact RenderSettings.isReadable_lines fits line inRender

private theorem read?_write {configuration : Configuration} (fits : configuration.render.Fits) :
    Toml.read? configuration.write.toList = some [("ext", ExtensionEntry.nodeOfList configuration.extensions),
      ("render", .table .headed configuration.render.entries)] := by
  obtain ⟨header, extensions⟩ := ExtensionEntry.adds_linesOfList configuration.extensions
  have adds := extensions.append (configuration.render.adds_lines header _)
  rw [Toml.read?, write, String.toList_ofList, readStatements?_writeLines (isReadable_lines fits), Option.bind_some,
    lines, List.filterMap_append, adds.document_eq]

/-- Whatever its texts hold, a configuration is read back from what is written, as long as its numbers are
ones that can be read. -/
theorem read_written_iff (configuration : Configuration) (file : String) :
    Configuration.read configuration.write file = .ok configuration ↔ configuration.render.Fits := by
  refine ⟨fits_of_read, fun fits => ?_⟩
  have decoded : ofEntries? [("ext", ExtensionEntry.nodeOfList configuration.extensions),
      ("render", .table .headed configuration.render.entries)] = some configuration := by
    have known : passesOver ["ext", "render"] [("ext", ExtensionEntry.nodeOfList configuration.extensions),
        ("render", .table .headed configuration.render.entries)] = true := by
      simp [passesOver, entriesSound]
    rw [ofEntries?, guard_passesOver known]
    simp [List.lookup_cons, orDefault, ExtensionEntry.listOfNode?_nodeOfList, RenderSettings.ofNode?,
      RenderSettings.ofEntries?_entries fits]
  rw [Configuration.read, read?_write fits, Option.bind_some, decoded]

end Configuration

namespace FileSystem

variable {δ : Type}

/-- What is written to a file is what is read from it. -/
def Keeps (files : FileSystem δ) : Prop :=
  ∀ path text before after, files.write path text before = .ok after → files.read path after = .ok text

/-- Whether a text can be put at a path. -/
def Takes (files : FileSystem δ) (path text : String) (before : δ) : Prop :=
  ∃ ready after, files.makeParents path before = .ok ready ∧ files.write path text ready = .ok after

/-- Files in memory, which takes everything. -/
def memory : FileSystem (List (String × String)) where
  read path files :=
    match files.lookup path with
    | some text => .ok text
    | none => .error "No such file or directory"
  makeParents _ files := .ok files
  write path text files := .ok ((path, text) :: files)

theorem memory_keeps : memory.Keeps := by
  intro path text before after written
  cases written
  simp [memory]

end FileSystem

namespace Configuration

variable {δ : Type} {files : FileSystem δ}

private theorem mapError_eq_ok {α : Type} {answer : Except String α} {value : α} :
    answer.mapError StorageError.refused = .ok value ↔ answer = .ok value := by
  cases answer with
  | error reason => exact ⟨nofun, nofun⟩
  | ok held => exact ⟨fun same => congrArg _ (Except.ok.inj same), fun same => congrArg _ (Except.ok.inj same)⟩

theorem save_eq_ok {configuration : Configuration} {path : String} {before after : δ} :
    configuration.save files path before = .ok after ↔
      ∃ ready, files.makeParents path before = .ok ready ∧ files.write path configuration.write ready = .ok after := by
  refine bind_eq_ok.trans ?_
  simp only [mapError_eq_ok]

/-- Only the file system can keep a configuration from being saved, and what was saved is loaded. -/
theorem load_saved (keeps : files.Keeps) {configuration : Configuration} (fits : configuration.render.Fits)
    (path : String) (before : δ) :
    ((∃ after, configuration.save files path before = .ok after) ↔ files.Takes path configuration.write before) ∧
      ∀ after, configuration.save files path before = .ok after → load files path after = .ok configuration := by
  constructor
  · simp only [save_eq_ok]
    exact exists_comm
  · intro after saved
    obtain ⟨ready, _, written⟩ := save_eq_ok.mp saved
    have held : files.read path after = .ok configuration.write := keeps path configuration.write ready after written
    have read : Configuration.read configuration.write path = .ok configuration :=
      (read_written_iff configuration path).mpr fits
    rw [load, held]
    change (Configuration.read configuration.write path).mapError StorageError.engine = _
    rw [read]
    rfl

/-- Quotes of both kinds, backslashes, line breaks and control characters in the texts, and the largest
numbers. -/
def awkward : Configuration where
  extensions := [⟨.nil, "C:\\items\\\"bar\".so", "'''bar\r\n\"\"\"\"\""⟩, ⟨.nil, "\n\x00", ""⟩]
  render := ⟨0xFFFFFFFFFFFFFFFF, "\x7F#'Größe'", some 0xFFFFFFFFFFFFFFFF⟩

theorem awkward_fits : awkward.render.Fits :=
  ⟨by decide, by rintro _ ⟨⟩; decide⟩

theorem load_saved_awkward :
    FileSystem.memory.Keeps ∧ awkward.render.Fits ∧
      load .memory "rdl/meta.toml" [("rdl/meta.toml", awkward.write)] = .ok awkward := by
  have saved : awkward.save .memory "rdl/meta.toml" [] = .ok [("rdl/meta.toml", awkward.write)] := rfl
  obtain ⟨_, loaded⟩ := load_saved FileSystem.memory_keeps awkward_fits "rdl/meta.toml" []
  exact ⟨FileSystem.memory_keeps, awkward_fits, loaded _ saved⟩

end Configuration

end ReportEngine
