import ReportEngine.Expr.Eval

/-! How results and reads pass through a sequence of evaluations. A later evaluation runs only where
the earlier one succeeded, and what has been read stays in front of what is read next. -/

namespace ReportEngine.Traced

variable {α β : Type} {traced : Traced α} {next : α → Traced β} {value : α} {error : ExprError}

theorem bind_of_ok (reached : traced.result = .ok value) :
    traced.bind next = ⟨traced.reads ++ (next value).reads, (next value).result⟩ := by
  simp only [Traced.bind, reached]

theorem bind_of_error (failed : traced.result = .error error) :
    traced.bind next = ⟨traced.reads, .error error⟩ := by
  simp only [Traced.bind, failed]

@[simp] theorem pure_bind : (Traced.pure value).bind next = next value := rfl

theorem bind_eq_ok {result : β} (reached : (traced.bind next).result = .ok result) :
    ∃ value, traced.result = .ok value ∧ (next value).result = .ok result := by
  cases first : traced.result with
  | error error =>
    rw [bind_of_error first] at reached
    cases reached
  | ok value =>
    rw [bind_of_ok first] at reached
    exact ⟨value, rfl, reached⟩

/-- A failure is that of the earlier evaluation, or of the later one on the value reached. -/
theorem bind_eq_error (failed : (traced.bind next).result = .error error) :
    traced.result = .error error ∨
      ∃ value, traced.result = .ok value ∧ (next value).result = .error error := by
  cases first : traced.result with
  | error earlier =>
    rw [bind_of_error first] at failed
    cases failed
    exact .inl rfl
  | ok value =>
    rw [bind_of_ok first] at failed
    exact .inr ⟨value, rfl, failed⟩

/-- An evaluation that hands on the value it is given can be left out. -/
theorem bind_eq_self {next : α → Traced α}
    (same : ∀ value, traced.result = .ok value → next value = .pure value) : traced.bind next = traced := by
  obtain ⟨reads, result⟩ := traced
  cases result with
  | error error => rfl
  | ok value => simp only [Traced.bind, same value rfl, Traced.pure, List.append_nil]

theorem convert_eq_ok {traced : Traced Value} {kind : Kind} {result : Value}
    (reached : (traced.convert kind).result = .ok result) :
    ∃ value, traced.result = .ok value ∧ value.convert kind = .ok result :=
  bind_eq_ok reached

theorem convert_eq_error {traced : Traced Value} {kind : Kind}
    (failed : (traced.convert kind).result = .error error) :
    traced.result = .error error ∨ ∃ value, traced.result = .ok value ∧ value.convert kind = .error error :=
  bind_eq_error failed

/-- A truth written out again is the value seen as a boolean. -/
theorem truth_boolean (traced : Traced Value) :
    (traced.truth.bind fun truth => .pure (.boolean truth)) = traced.convert .boolean := by
  cases outcome : traced.result with
  | error error =>
    rw [truth, convert, bind_of_error outcome, bind_of_error outcome]
    rfl
  | ok value =>
    rw [truth, convert, bind_of_ok outcome, bind_of_ok outcome, Value.convert]
    cases value.toBoolean with
    | error error => rfl
    | ok truth => simp only [Traced.bind, ofExcept, Traced.pure, List.append_nil, Except.map]

theorem truth_eq_error {traced : Traced Value} (failed : traced.truth.result = .error error) :
    traced.result = .error error ∨ ∃ value, traced.result = .ok value ∧ value.toBoolean = .error error :=
  bind_eq_error failed

end ReportEngine.Traced
