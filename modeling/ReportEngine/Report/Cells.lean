import ReportEngine.EngineError
import ReportEngine.Report.Definition

/-! The cells of every row. Rows are split into runs of neighbours, one for each worker, and joined
again in order. -/

namespace ReportEngine

inductive CellValue where
  | value (shown : Value)
  /-- Evaluation failed; the marker is shown instead. -/
  | error (marker message : String)
deriving DecidableEq

namespace CellValue

def display : CellValue → String
  | value shown => shown.display
  | error marker _ => marker

end CellValue

structure RenderedRow where
  position : Nat
  cells : List CellValue
deriving DecidableEq

namespace CellDef

/-- The cell on one row. A failure stays inside the cell. -/
def render (cell : CellDef) (context : Context) (row : Row) (marker : String) : CellValue :=
  match cell.expr.value context row.fields with
  | .ok value => .value value
  | .error error => .error marker error.message

end CellDef

def renderRow (cells : List CellDef) (context : Context) (marker : String) (row : Row) : RenderedRow :=
  ⟨row.position, cells.map fun cell => cell.render context row marker⟩

/-- Renders the rows from one index on, one after the other, and stops at the first before which the job is
found cancelled. -/
def renderChunk (cells : List CellDef) (context : Context) (marker : String) (interrupted : Nat → Bool)
    (index : Nat) : List Row → Except EngineError (List RenderedRow)
  | [] => .ok []
  | row :: rest =>
    if context.cancelled || interrupted index then .error .cancelled
    else
      (renderChunk cells context marker interrupted (index + 1) rest).map
        (renderRow cells context marker row :: ·)

/-- Splits a list into runs of a size, of which the last may be shorter. -/
def chunks {α : Type} (size : Nat) (items : List α) : List (List α) :=
  if 0 < size ∧ items ≠ [] then items.take size :: chunks size (items.drop size) else []
termination_by items.length
decreasing_by
  next possible =>
    have : 0 < items.length := List.length_pos_iff.mpr possible.2
    simp only [List.length_drop]
    omega

/-- The number of workers for a number of rows: as many as wanted, but one at least and no more than
there are rows. -/
def workerCount (wanted rows : Nat) : Nat := min (max wanted 1) (max rows 1)

def chunkSize (rows workers : Nat) : Nat := (rows + workers - 1) / workers

/-- What each worker makes of its chunk of the rows from one index on. -/
def renderChunks (cells : List CellDef) (context : Context) (marker : String) (interrupted : Nat → Bool)
    (index : Nat) : List (List Row) → List (Except EngineError (List RenderedRow))
  | [] => []
  | chunk :: rest =>
    renderChunk cells context marker interrupted index chunk ::
      renderChunks cells context marker interrupted (index + chunk.length) rest

/-- Joins the rows of all workers. The first worker that failed decides the error. -/
def joinChunks : List (Except EngineError (List RenderedRow)) → Except EngineError (List RenderedRow)
  | [] => .ok []
  | chunk :: rest => do
    let rows ← chunk
    let others ← joinChunks rest
    return rows ++ others

def renderRows (cells : List CellDef) (context : Context) (settings : RenderSettings)
    (interrupted : Nat → Bool) (rows : List Row) : Except EngineError (List RenderedRow) :=
  let workers := workerCount settings.workerThreads rows.length
  if workers = 1 then renderChunk cells context settings.errorMarker interrupted 0 rows
  else
    joinChunks (renderChunks cells context settings.errorMarker interrupted 0
      (chunks (chunkSize rows.length workers) rows))

end ReportEngine
