import ReportEngine.Report.Cells
import ReportEngine.Report.Frames
import ReportEngine.Report.Interruption
import ReportEngine.Report.Totals

/-! A whole run of a job: aggregates, then cells, then custom items. Failures stay in the output; only
cancellation ends a run. -/

namespace ReportEngine

structure RenderOutput where
  rows : List RenderedRow
  items : List ItemOutput
deriving DecidableEq

namespace RenderOutput

def displayRows (output : RenderOutput) : List (List String) :=
  output.rows.map fun row => row.cells.map CellValue.display

end RenderOutput

structure ItemCall where
  typeName : String
  call : Call
deriving DecidableEq

/-- A run: its output, the calls made to items, and the context it leaves. -/
structure Run where
  output : Except EngineError RenderOutput
  calls : List ItemCall
  context : Context

variable {σ : Type}

/-- Outputs of the items of a job, the calls made to them, and the context after them. -/
structure ItemRun where
  outputs : Except EngineError (List ItemOutput)
  calls : List ItemCall
  context : Context

/-- Drives the items from one index on, one after the other, up to the first that finds the job cancelled. -/
def driveItems (rows : List Row) (registry : Registry σ) (settings : RenderSettings)
    (interrupted : Nat → Bool) (index : Nat) : List ItemDef → Context → ItemRun
  | [], context => ⟨.ok [], [], context⟩
  | item :: rest, context =>
    let drive := item.drive (context.cancelIf (interrupted index)) rows registry settings
    let after := context.cancelIf drive.cancelled
    let calls := drive.calls.map (ItemCall.mk item.typeName)
    match drive.output with
    | .error error => ⟨.error error, calls, after⟩
    | .ok output =>
      let later := driveItems rows registry settings interrupted (index + 1) rest after
      ⟨later.outputs.map (output :: ·), calls ++ later.calls, later.context⟩

namespace Job

/-- A run during which others may cancel the job. -/
def runAmid (job : Job) (interruption : Interruption) (context : Context) (rows : List Row)
    (registry : Registry σ) : Run :=
  if context.cancelled then ⟨.error .cancelled, [], context⟩
  else
    match computeTotals job.aggregates context interruption.totals rows with
    | .error error => ⟨.error error, [], context.clearAggregates.cancel⟩
    | .ok bound =>
      match renderRows job.cells bound job.settings interruption.cells rows with
      | .error error => ⟨.error error, [], bound.cancel⟩
      | .ok rendered =>
        let items := driveItems rows registry job.settings interruption.items 0 job.items bound
        ⟨items.outputs.map (RenderOutput.mk rendered), items.calls, items.context⟩

def run (job : Job) (context : Context) (rows : List Row) (registry : Registry σ) : Run :=
  job.runAmid .none context rows registry

end Job

end ReportEngine
