import ReportEngine.Toml.Basic

/-! What the statements of a document add up to. A key is defined once, a table has one header, and a
table in braces cannot be added to. -/

namespace ReportEngine.Toml

def alter (change : Option Node → Option Node) (key : String) : Entries → Option Entries
  | [] => (change none).map fun value => [(key, value)]
  | (other, value) :: rest =>
    if other = key then (change (some value)).map fun value => (key, value) :: rest
    else (alter change key rest).map ((other, value) :: ·)

theorem alter_of_fresh {change : Option Node → Option Node} {key : String} {entries : Entries}
    (fresh : key ∉ entries.map Prod.fst) :
    alter change key entries = (change none).map fun value => entries ++ [(key, value)] := by
  induction entries with
  | nil => rfl
  | cons entry rest ih =>
    obtain ⟨other, value⟩ := entry
    simp only [List.map_cons, List.mem_cons, not_or] at fresh
    rw [alter, if_neg (Ne.symm fresh.1), ih fresh.2, Option.map_map]
    rfl

/-- A key behind others is changed where it stands. -/
theorem alter_append {change : Option Node → Option Node} {key : String} {entries : Entries} {value : Node}
    (fresh : key ∉ entries.map Prod.fst) :
    alter change key (entries ++ [(key, value)]) = (change (some value)).map fun value => entries ++ [(key, value)] := by
  induction entries with
  | nil => rw [List.nil_append, alter, if_pos rfl]; rfl
  | cons entry rest ih =>
    obtain ⟨other, held⟩ := entry
    simp only [List.map_cons, List.mem_cons, not_or] at fresh
    rw [List.cons_append, alter, if_neg (Ne.symm fresh.1), ih fresh.2, Option.map_map]
    rfl

def alterLast {α : Type} (change : α → Option α) : List α → Option (List α)
  | [] => none
  | [last] => (change last).map ([·])
  | first :: rest => (alterLast change rest).map (first :: ·)

theorem alterLast_append {α : Type} (change : α → Option α) (front : List α) (last : α) :
    alterLast change (front ++ [last]) = (change last).map (front ++ [·]) := by
  induction front with
  | nil => rfl
  | cons first front ih =>
    have more : front ++ [last] ≠ [] := by simp
    obtain ⟨next, rest, spelled⟩ := List.exists_cons_of_ne_nil more
    have step : alterLast change (first :: (front ++ [last])) = (alterLast change (front ++ [last])).map (first :: ·) := by
      rw [spelled, alterLast]
      nofun
    rw [List.cons_append, step, ih, Option.map_map]
    rfl

/-- What a path leads through: the tables of a header, or those of a dotted key. -/
inductive Route where
  | header
  | dotted
deriving DecidableEq, Repr

namespace Route

def created : Route → TableState
  | header => .implicit
  | dotted => .dotted

/-- Whether a path may lead through a table that exists. A dotted key does not reach into a table that
has a header of its own. -/
def passes : Route → TableState → Bool
  | _, .inline => false
  | header, _ => true
  | dotted, state => state != .headed

end Route

/-- Changes the table that a path leads to from a table in a state. The change is told the state of the
table that it is made in. A path leads through the last of several tables under one header. -/
def within (route : Route) (change : TableState → Entries → Option Entries) (state : TableState) :
    List String → Entries → Option Entries
  | [], entries => change state entries
  | key :: path, entries =>
    alter (fun
      | none => (within route change route.created path []).map (.table route.created)
      | some (.table reached inner) =>
        if route.passes reached then (within route change reached path inner).map (.table reached)
        else none
      | some (.tables items) => (alterLast (within route change .headed path) items).map .tables
      | some _ => none) key entries

def define (value : Node) : String → Entries → Option Entries :=
  alter fun
    | none => some value
    | some _ => none

def openTable : String → Entries → Option Entries :=
  alter fun
    | none => some (.table .headed [])
    | some (.table .implicit entries) => some (.table .headed entries)
    | some _ => none

/-- Opens a further table under a header in double brackets. -/
def appendTable : String → Entries → Option Entries :=
  alter fun
    | none => some (.tables [[]])
    | some (.tables items) => some (.tables (items ++ [[]]))
    | some _ => none

def splitLast? : List String → Option (List String × String)
  | [] => none
  | [key] => some ([], key)
  | key :: path => (splitLast? path).map fun (front, last) => (key :: front, last)

/-- Changes what the last key of a header stands for. -/
def atHeader (path : List String) (change : String → Entries → Option Entries) (entries : Entries) :
    Option Entries :=
  (splitLast? path).bind fun (front, key) => within .header (fun _ => change key) .headed front entries

/-- Assigns a value to a key in a table. The last part of a dotted key is defined only in a table that
dotted keys have made. -/
def assign (path : List String) (value : Node) (entries : Entries) : Option Entries :=
  (splitLast? path).bind fun
    | ([], key) => define value key entries
    | (front, key) =>
      within .dotted (fun state inner => if state = .dotted then define value key inner else none)
        .headed front entries

/-- Adds a statement to a document, given the header it stands under. Answers the header that the next
one stands under. -/
def Statement.add (statement : Statement) (current : List String) (document : Entries) :
    Option (List String × Entries) :=
  match statement with
  | .header path => (atHeader path openTable document).map (path, ·)
  | .arrayHeader path => (atHeader path appendTable document).map (path, ·)
  | .assign path value =>
    (within .header (fun _ => Toml.assign path value) .headed current document).map (current, ·)

def addAll (current : List String) (document : Entries) : List Statement → Option Entries
  | [] => some document
  | statement :: rest =>
    (statement.add current document).bind fun (current, document) => addAll current document rest

def document (statements : List Statement) : Option Entries := addAll [] [] statements

def inlineTable (assignments : List (List String × Node)) : Option Node :=
  (assignments.foldlM (fun entries (path, value) => assign path value entries) []).map (.table .inline)

end ReportEngine.Toml
