import ReportEngine.Proofs.AggregatePass
import ReportEngine.Proofs.ItemFrames
import ReportEngine.Proofs.WorkerChunks
import ReportEngine.Report.Run

/-! Whole runs of a job. A run gets through all of its stages or is cancelled in one of them, and nothing that fails
on the way keeps a row, a cell or an item from having its place in the output. -/

namespace ReportEngine

variable {σ : Type}

namespace ItemDef

variable {item : ItemDef} {context : Context} {rows : List Row} {registry : Registry σ} {settings : RenderSettings}

/-- An item has an output, or the job is cancelled by then. -/
theorem drive_cases (item : ItemDef) (context : Context) (rows : List Row) (registry : Registry σ)
    (settings : RenderSettings) :
    let drive := item.drive context rows registry settings
    (∃ frames, drive.output = .ok ⟨item.name, frames⟩) ∨
      drive.output = .error .cancelled ∧ drive.cancelled = true := by
  cases created : registry.create item.typeName with
  | error problem =>
    simp only [item.drive_of_refused context rows settings created]
    exact .inl ⟨_, rfl⟩
  | ok guard =>
    obtain ⟨calls, frames, ending, output, -, now⟩ := drive_ending context rows settings created
    simp only [output, now]
    cases outcome : frames with
    | ok frames => exact .inl ⟨frames, rfl⟩
    | error problem =>
      obtain ⟨rfl, cancelled⟩ := ending.error_cancelled outcome
      exact .inr ⟨rfl, cancelled⟩

theorem drive_keeps_cancelled (cancelled : context.cancelled = true) :
    (item.drive context rows registry settings).cancelled = true := by
  cases created : registry.create item.typeName with
  | error problem =>
    rw [item.drive_of_refused context rows settings created]
    exact cancelled
  | ok guard =>
    rw [(item.drive_left context rows settings created).2]
    exact Situation.after_keeps_cancelled _ cancelled

theorem name_of_drive {output : ItemOutput} (driven : (item.drive context rows registry settings).output = .ok output) :
    output.name = item.name := by
  rcases item.drive_cases context rows registry settings with ⟨frames, drawn⟩ | ⟨stopped, _⟩
  · cases driven.symm.trans drawn
    rfl
  · cases driven.symm.trans stopped

end ItemDef

section Items

variable (rows : List Row) (registry : Registry σ) (settings : RenderSettings) (interrupted : Nat → Bool)

/-- Items change nothing of what a job knows, except that they may cancel it. -/
theorem driveItems_context (index : Nat) (items : List ItemDef) (context : Context) :
    (driveItems rows registry settings interrupted index items context).context =
      { context with
        cancelled := (driveItems rows registry settings interrupted index items context).context.cancelled } := by
  induction items generalizing index context with
  | nil => rfl
  | cons item rest ih =>
    rw [driveItems]
    simp only
    split
    next => rfl
    next => rw [ih, Context.cancelIf]

/-- Every item has its output, the one that it has when the job is never cancelled, or the job is cancelled in the
end: by induction on the items, each of which hands the job on as it found it unless it is cancelled. -/
theorem driveItems_cases (index : Nat) (items : List ItemDef) (context : Context) :
    let run := driveItems rows registry settings interrupted index items context
    run.outputs = .error .cancelled ∧ run.context.cancelled = true ∨
      ∃ outputs, run.outputs = .ok outputs ∧ (run.context.cancelled = false → context.cancelled = false ∧
        List.Forall₂ (fun item output => (item.drive context rows registry settings).output = .ok output)
          items outputs) := by
  induction items generalizing index context with
  | nil => exact .inr ⟨[], rfl, fun running => ⟨running, .nil⟩⟩
  | cons item rest ih =>
    rw [driveItems]
    rcases item.drive_cases (context.cancelIf (interrupted index)) rows registry settings with
      ⟨frames, drawn⟩ | ⟨stopped, cancelled⟩
    · simp only [drawn]
      rcases ih (index + 1)
          (context.cancelIf (item.drive (context.cancelIf (interrupted index)) rows registry settings).cancelled) with
        ⟨stopped, cancelled⟩ | ⟨outputs, driven, undisturbed⟩
      · exact .inl ⟨map_eq_error_iff.mpr stopped, cancelled⟩
      · refine .inr ⟨⟨item.name, frames⟩ :: outputs, congrArg _ driven, fun running => ?_⟩
        obtain ⟨after, others⟩ := undisturbed running
        obtain ⟨running, still⟩ := Context.cancelIf_cancelled_eq_false.mp after
        -- The item has not cancelled the job, so neither had anybody else before it: no call takes that back.
        have found : (context.cancelIf (interrupted index)).cancelled = false := by
          cases found : (context.cancelIf (interrupted index)).cancelled with
          | false => rfl
          | true => rw [ItemDef.drive_keeps_cancelled found] at still; cases still
        rw [still, Context.cancelIf_false] at others
        rw [(Context.cancelIf_cancelled_eq_false.mp found).2, Context.cancelIf_false] at drawn
        exact ⟨running, .cons drawn others⟩
    · simp only [stopped]
      exact .inl ⟨trivial, Bool.or_eq_true_iff.mpr (.inr cancelled)⟩

/-- Items that do not cancel a job, while nobody else does, leave it running. -/
theorem driveItems_undisturbed (index : Nat) (items : List ItemDef) {context : Context}
    (running : context.cancelled = false)
    (others : ∀ next < index + items.length, interrupted next = false)
    (quiet : ∀ item ∈ items, (item.drive context rows registry settings).cancelled = false) :
    (driveItems rows registry settings interrupted index items context).context.cancelled = false := by
  induction items generalizing index with
  | nil => exact running
  | cons item rest ih =>
    have here : interrupted index = false := others index (by simp)
    rw [driveItems]
    simp only [here, Context.cancelIf_false, quiet item List.mem_cons_self]
    split
    next => exact running
    next =>
      refine ih (index + 1) (fun next inside => others next ?_) fun other member => ?_
      · rw [List.length_cons]
        omega
      · exact quiet other (List.mem_cons_of_mem _ member)

end Items

namespace Job

variable (job : Job) (interruption : Interruption) (rows : List Row) (registry : Registry σ)

/-- The context that the cells and the items of a job see. -/
def bound (context : Context) : Context :=
  { context with aggregates := totalsTable job.aggregates context.clearAggregates rows }

/-- A run is cancelled while it takes rows into the aggregates, while it evaluates cells, or gets to the items. -/
theorem runAmid_cases {context : Context} (running : context.cancelled = false) :
    let run := job.runAmid interruption context rows registry
    run = ⟨.error .cancelled, [], context.clearAggregates.cancel⟩ ∧
        FoundCancelled context interruption.totals 0 rows.length ∨
      computeTotals job.aggregates context interruption.totals rows = .ok (job.bound rows context) ∧
        (run = ⟨.error .cancelled, [], (job.bound rows context).cancel⟩ ∧
            FoundCancelled (job.bound rows context) interruption.cells 0 rows.length ∨
          let items := driveItems rows registry job.settings interruption.items 0 job.items (job.bound rows context)
          run = ⟨items.outputs.map
              (RenderOutput.mk (rows.map (renderRow job.cells (job.bound rows context) job.settings.errorMarker))),
            items.calls, items.context⟩) := by
  rw [runAmid, if_neg (Bool.not_eq_true _ ▸ running)]
  rcases computeTotals_cases job.aggregates context interruption.totals rows with totalled | ⟨stopped, found⟩
  · have totalled : computeTotals job.aggregates context interruption.totals rows = .ok (job.bound rows context) :=
      totalled
    refine .inr ⟨totalled, ?_⟩
    simp only [totalled, renderRows_eq_renderChunk]
    rcases renderChunk_cases job.cells (job.bound rows context) job.settings.errorMarker interruption.cells 0 rows with
      rendered | ⟨stopped, found⟩
    · exact .inr (by rw [rendered])
    · exact .inl ⟨by rw [stopped], found⟩
  · simp only [stopped]
    exact .inl ⟨trivial, found⟩

/-- A run is cancelled in the end, or every stage of it got through undisturbed. A run that is cancelled only after
its last item was driven has an output all the same. -/
theorem runAmid_output (context : Context) :
    let run := job.runAmid interruption context rows registry
    run.output = .error .cancelled ∧ run.context.cancelled = true ∨
      ∃ outputs, run.output =
          .ok ⟨rows.map (renderRow job.cells (job.bound rows context) job.settings.errorMarker), outputs⟩ ∧
        (run.context.cancelled = false → run.context = job.bound rows context ∧
          computeTotals job.aggregates context interruption.totals rows = .ok run.context ∧
          List.Forall₂ (fun item output => (item.drive run.context rows registry job.settings).output = .ok output)
            job.items outputs) := by
  intro run
  cases started : context.cancelled with
  | true =>
    rw [show run = ⟨.error .cancelled, [], context⟩ from if_pos started]
    exact .inl ⟨rfl, started⟩
  | false =>
    rcases job.runAmid_cases interruption rows registry started with ⟨ran, -⟩ | ⟨totalled, ⟨ran, -⟩ | ran⟩
    · rw [show run = _ from ran]
      exact .inl ⟨rfl, rfl⟩
    · rw [show run = _ from ran]
      exact .inl ⟨rfl, rfl⟩
    · rw [show run = _ from ran]
      rcases driveItems_cases rows registry job.settings interruption.items 0 job.items (job.bound rows context) with
        ⟨stopped, cancelled⟩ | ⟨outputs, driven, undisturbed⟩
      · exact .inl ⟨map_eq_error_iff.mpr stopped, cancelled⟩
      · refine .inr ⟨outputs, congrArg (Except.map _) driven, fun running => ?_⟩
        -- Items only ever cancel, and here nobody has, so the cells and all items saw one and the same context.
        have kept : (driveItems rows registry job.settings interruption.items 0 job.items (job.bound rows context)).context =
            job.bound rows context := by
          rw [driveItems_context, running, ← started]
          rfl
        rw [kept]
        exact ⟨rfl, totalled, (undisturbed running).2⟩

/-- A run that nobody cancels leaves the job running. -/
theorem runAmid_undisturbed {context : Context} (running : context.cancelled = false)
    (others : ∀ row < rows.length, interruption.totals row = false ∧ interruption.cells row = false)
    (otherItems : ∀ index < job.items.length, interruption.items index = false)
    (quiet : ∀ bound, computeTotals job.aggregates context interruption.totals rows = .ok bound →
      ∀ item ∈ job.items, (item.drive bound rows registry job.settings).cancelled = false) :
    (job.runAmid interruption context rows registry).context.cancelled = false := by
  rcases job.runAmid_cases interruption rows registry running with
    ⟨_, found⟩ | ⟨totalled, ⟨_, found⟩ | ran⟩
  · exact absurd found (not_foundCancelled running fun row inside => (others row inside).1)
  · exact absurd found (not_foundCancelled running fun row inside => (others row inside).2)
  · rw [ran]
    refine driveItems_undisturbed rows registry job.settings interruption.items 0 job.items running ?_ (quiet _ totalled)
    exact fun next inside => otherItems next (by omega)

end Job

theorem renderRow_fold (cells : List CellDef) (context : Context) (marker : String) (row : Row) :
    renderRow (cells.map CellDef.fold) context marker row =
      ⟨row.position, cells.map fun cell =>
        match cell.expr.fold.value context row.fields with
        | .ok value => .value value
        | .error error => .error marker error.message⟩ := by
  rw [renderRow, List.map_map]
  rfl

/-- Two aggregates of one name. The second adds up what the name is bound to, which is nothing yet. -/
def selfReferring : ReportDefinition where
  name := ""
  schema := .empty
  cells := []
  aggregates := [⟨"n", .count, .constant (.int32 5)⟩, ⟨"n", .sum, .aggregate "n" .int32⟩]
  items := []

end ReportEngine
