import ReportEngine.Report.Cells
import ReportEngine.Report.Interruption

/-! Rows shared out among workers. Whatever the number of rows and of workers, the chunks make up the rows again,
and what the workers render, joined, is what a single one renders. -/

namespace ReportEngine

variable {α : Type} {cells : List CellDef} {context : Context} {marker : String} {interrupted : Nat → Bool}

section Chunks

variable {size : Nat} {items : List α}

theorem flatten_chunks (positive : 0 < size) (items : List α) : (chunks size items).flatten = items := by
  fun_induction chunks size items with
  | case1 items possible ih => rw [List.flatten_cons, ih, List.take_append_drop]
  | case2 items impossible =>
    have none : items = [] := by simpa [positive] using impossible
    rw [none, List.flatten_nil]

theorem ne_nil_of_mem_chunks {chunk : List α} (member : chunk ∈ chunks size items) : chunk ≠ [] := by
  fun_induction chunks size items with
  | case1 items possible ih =>
    rcases List.mem_cons.mp member with rfl | later
    · obtain ⟨positive, some⟩ := possible
      simpa [List.take_eq_nil_iff, some] using Nat.pos_iff_ne_zero.mp positive
    · exact ih later
  | case2 items impossible => exact absurd member List.not_mem_nil

/-- Every chunk but the last is full. -/
theorem length_chunks_mul_lt (positive : 0 < size) (items : List α) :
    (chunks size items).length * size < items.length + size := by
  fun_induction chunks size items with
  | case1 items possible ih =>
    have some : 0 < items.length := List.length_pos_iff.mpr possible.2
    rw [List.length_drop] at ih
    rw [List.length_cons, Nat.succ_mul]
    by_cases full : size ≤ items.length
    · omega
    -- A chunk that is not full takes all there is, so no chunk follows.
    · have short : (chunks size (items.drop size)).length * size < 1 * size := by omega
      have last := Nat.lt_one_iff.mp (Nat.lt_of_mul_lt_mul_right short)
      rw [last]
      omega
  | case2 items impossible => simpa using by omega

end Chunks

theorem one_le_workerCount (wanted rows : Nat) : 1 ≤ workerCount wanted rows := by
  unfold workerCount
  omega

theorem workerCount_le_wanted (wanted rows : Nat) : workerCount wanted rows ≤ max wanted 1 := Nat.min_le_left _ _

theorem workerCount_le_rows (wanted rows : Nat) : workerCount wanted rows ≤ max rows 1 := Nat.min_le_right _ _

/-- Without rows one worker is enough. -/
theorem ne_nil_of_several {wanted : Nat} {rows : List α} (several : workerCount wanted rows.length ≠ 1) : rows ≠ [] := by
  rintro rfl
  exact several (Nat.le_antisymm (workerCount_le_rows _ 0) (one_le_workerCount _ _))

theorem chunkSize_pos {rows workers : Nat} (some : 0 < rows) (worked : 0 < workers) : 0 < chunkSize rows workers :=
  Nat.div_pos (by omega) worked

/-- The workers have room for all rows. -/
theorem le_workers_mul_chunkSize (rows : Nat) {workers : Nat} (worked : 0 < workers) :
    rows ≤ workers * chunkSize rows workers := by
  have whole := Nat.div_add_mod (rows + workers - 1) workers
  have part := Nat.mod_lt (rows + workers - 1) worked
  unfold chunkSize
  omega

/-- Rows shared out among the workers that are wanted, in chunks of neighbours. -/
structure SharedOut (wanted : Nat) (rows : List α) (chunks : List (List α)) : Prop where
  whole : chunks.flatten = rows
  busy : ∀ chunk ∈ chunks, chunk ≠ []
  few : chunks.length ≤ max wanted 1

theorem chunks_sharedOut (wanted : Nat) (rows : List α) (some : rows ≠ []) :
    SharedOut wanted rows (chunks (chunkSize rows.length (workerCount wanted rows.length)) rows) where
  whole := flatten_chunks (chunkSize_pos (List.length_pos_iff.mpr some) (one_le_workerCount _ _)) rows
  busy _ member := ne_nil_of_mem_chunks member
  few := by
    have worked := one_le_workerCount wanted rows.length
    have positive := chunkSize_pos (List.length_pos_iff.mpr some) worked
    -- Chunks one too many would hold more rows than all workers have room for.
    have filled := length_chunks_mul_lt positive rows
    have room := le_workers_mul_chunkSize rows.length worked
    refine Nat.le_trans ?_ (workerCount_le_wanted wanted rows.length)
    apply Nat.le_of_lt_succ
    refine Nat.lt_of_mul_lt_mul_right (Nat.lt_of_lt_of_le filled ?_)
    rw [Nat.succ_mul]
    exact Nat.add_le_add_right room _

/-- There may be fewer chunks than workers. -/
example : chunks (chunkSize 5 (workerCount 4 5)) [1, 2, 3, 4, 5] = [[1, 2], [3, 4], [5]] := by cbv

/-- What is rendered does not depend on where the rows are cut in two. -/
theorem renderChunk_append (index : Nat) (first second : List Row) :
    renderChunk cells context marker interrupted index (first ++ second) = (do
      let rows ← renderChunk cells context marker interrupted index first
      let others ← renderChunk cells context marker interrupted (index + first.length) second
      return rows ++ others) := by
  induction first generalizing index with
  | nil =>
    rw [List.nil_append, List.length_nil, Nat.add_zero]
    cases renderChunk cells context marker interrupted index second with
    | error error => rfl
    | ok rows => rfl
  | cons row first ih =>
    rw [List.cons_append, renderChunk, renderChunk]
    by_cases found : (context.cancelled || interrupted index) = true
    · rw [if_pos found, if_pos found]
      rfl
    · rw [if_neg found, if_neg found, ih (index + 1), List.length_cons, Nat.add_right_comm, ← Nat.add_assoc]
      cases renderChunk cells context marker interrupted (index + 1) first with
      | error error => rfl
      | ok rows =>
        cases renderChunk cells context marker interrupted (index + first.length + 1) second with
        | error error => rfl
        | ok others => rfl

theorem joinChunks_renderChunks (index : Nat) (parts : List (List Row)) :
    joinChunks (renderChunks cells context marker interrupted index parts) =
      renderChunk cells context marker interrupted index parts.flatten := by
  induction parts generalizing index with
  | nil => rfl
  | cons part rest ih => rw [renderChunks, joinChunks, ih, List.flatten_cons, renderChunk_append]

theorem renderRows_eq_renderChunk (cells : List CellDef) (context : Context) (settings : RenderSettings)
    (interrupted : Nat → Bool) (rows : List Row) :
    renderRows cells context settings interrupted rows =
      renderChunk cells context settings.errorMarker interrupted 0 rows := by
  by_cases alone : workerCount settings.workerThreads rows.length = 1
  · rw [renderRows, if_pos alone]
  · rw [renderRows, if_neg alone, joinChunks_renderChunks, (chunks_sharedOut _ rows (ne_nil_of_several alone)).whole]

/-- Either all rows are rendered, or the job was found cancelled. -/
theorem renderChunk_cases (cells : List CellDef) (context : Context) (marker : String) (interrupted : Nat → Bool)
    (index : Nat) (rows : List Row) :
    renderChunk cells context marker interrupted index rows = .ok (rows.map (renderRow cells context marker)) ∨
      renderChunk cells context marker interrupted index rows = .error .cancelled ∧
        FoundCancelled context interrupted index rows.length := by
  induction rows generalizing index with
  | nil => exact .inl rfl
  | cons row rest ih =>
    rw [renderChunk]
    by_cases found : (context.cancelled || interrupted index) = true
    · rw [if_pos found]
      exact .inr ⟨rfl, .here found⟩
    · rw [if_neg found]
      rcases ih (index + 1) with whole | ⟨stopped, found⟩
      · exact .inl (by rw [whole]; rfl)
      · exact .inr ⟨by rw [stopped]; rfl, found.later⟩

/-- However many workers are wanted, the rows come out as one worker renders them all, which is every row in its
place as long as the job is not cancelled. If there are several workers, they get chunks that are not empty. -/
theorem renderRows_of_any_workers (cells : List CellDef) (context : Context) (settings : RenderSettings)
    (interrupted : Nat → Bool) (rows : List Row) :
    renderRows cells context settings interrupted rows =
      renderChunk cells context settings.errorMarker interrupted 0 rows ∧
    (context.cancelled = false → (∀ row < rows.length, interrupted row = false) →
      renderRows cells context settings interrupted rows =
        .ok (rows.map (renderRow cells context settings.errorMarker))) ∧
    (workerCount settings.workerThreads rows.length ≠ 1 →
      let size := chunkSize rows.length (workerCount settings.workerThreads rows.length)
      0 < size ∧ SharedOut settings.workerThreads rows (chunks size rows)) := by
  have same := renderRows_eq_renderChunk cells context settings interrupted rows
  refine ⟨same, fun running undisturbed => ?_, fun several => ?_⟩
  · rw [same]
    rcases renderChunk_cases cells context settings.errorMarker interrupted 0 rows with whole | ⟨_, found⟩
    · exact whole
    · exact absurd found (not_foundCancelled running undisturbed)
  · have some := ne_nil_of_several several
    exact ⟨chunkSize_pos (List.length_pos_iff.mpr some) (one_le_workerCount _ _), chunks_sharedOut _ rows some⟩

end ReportEngine
