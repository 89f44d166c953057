import ReportEngine.Proofs.Tracing

/-! Which branch a switch takes. Conditions are tried in order until one is not refused, and from then on
nothing is looked at but that condition and its result: whatever stands behind them, and the results of
the branches that were passed, can be exchanged without a trace. -/

namespace ReportEngine

variable {context : Context} {fields : Fields}

/-- Conditions, each with its result. -/
def Branches.toList : Branches → List (Expr × Expr)
  | nil => []
  | cons condition result rest => (condition, result) :: rest.toList

namespace Expr

/-- What a condition comes to, seen as a boolean. -/
def verdict (context : Context) (fields : Fields) (condition : Expr) : Except ExprError Bool :=
  (condition.eval context fields).truth.result

/-- The condition comes to false. One that fails is not refused. -/
def isRefused (context : Context) (fields : Fields) (condition : Expr) : Bool :=
  match condition.verdict context fields with
  | .ok false => true
  | _ => false

theorem isRefused_iff {condition : Expr} :
    condition.isRefused context fields = true ↔ condition.verdict context fields = .ok false := by
  unfold isRefused
  split
  next refused => exact ⟨fun _ => refused, fun _ => rfl⟩
  next other => exact ⟨nofun, fun refused => absurd refused other⟩

end Expr

namespace Branches

/-- The number of the first branch whose condition is not refused, or of all branches if there is none. -/
def firstUnrefused (context : Context) (fields : Fields) (branches : List (Expr × Expr)) : Nat :=
  branches.findIdx fun branch => !branch.1.isRefused context fields

/-- What a branch comes to that is not passed by: the failure of its condition, or else its result. -/
def taken (context : Context) (fields : Fields) (kind : Kind) : Expr × Expr → Traced Value
  | (condition, result) =>
    (condition.eval context fields).truth.bind fun _ =>
      if result.kind = kind then result.eval context fields else (result.eval context fields).convert kind

/-- What is read when conditions are tried one after the other. -/
def readsOf (context : Context) (fields : Fields) (conditions : List Expr) : List Nat :=
  conditions.flatMap fun condition => (condition.eval context fields).truth.reads

/-- Conditions that are all refused, and after them the branch that is not passed by, if there is one. -/
def run (context : Context) (fields : Fields) (kind : Kind) (refused : List Expr) (last : Option (Expr × Expr)) :
    Traced Value :=
  let final := last.elim (.pure .empty) (taken context fields kind)
  ⟨readsOf context fields refused ++ final.reads, final.result⟩

theorem eval_cons_of_refused {condition result : Expr} {rest : Branches} {kind : Kind}
    (refused : condition.isRefused context fields = true) :
    (cons condition result rest).eval context fields kind =
      ⟨(condition.eval context fields).truth.reads ++ (rest.eval context fields kind).reads,
        (rest.eval context fields kind).result⟩ := by
  rw [eval, Traced.bind_of_ok (Expr.isRefused_iff.mp refused)]
  rfl

theorem eval_cons_of_not_refused {condition result : Expr} {rest : Branches} {kind : Kind}
    (decided : condition.isRefused context fields = false) :
    (cons condition result rest).eval context fields kind = taken context fields kind (condition, result) := by
  rw [eval, taken]
  cases outcome : (condition.eval context fields).truth.result with
  | error error => rw [Traced.bind_of_error outcome, Traced.bind_of_error outcome]
  | ok matched =>
    cases matched with
    | true => rw [Traced.bind_of_ok outcome, Traced.bind_of_ok outcome, if_pos rfl]
    | false => rw [Expr.isRefused_iff.mpr outcome] at decided; cases decided

/-- Branches come to what the first one does that is not passed by, after the conditions before it. -/
theorem eval_of_passed {kind : Kind} : ∀ (branches : Branches) (i : Nat),
    (∀ condition ∈ (branches.toList.take i).map Prod.fst, condition.isRefused context fields = true) →
    (∀ branch, branches.toList[i]? = some branch → branch.1.isRefused context fields = false) →
    branches.eval context fields kind =
      run context fields kind ((branches.toList.take i).map Prod.fst) branches.toList[i]?
  | nil, i, _, _ => by
    simp only [eval, run, toList, readsOf, List.take_nil, List.map_nil, List.flatMap_nil, List.getElem?_nil,
      Option.elim_none, List.nil_append]
  | cons condition result rest, 0, _, decided => eval_cons_of_not_refused (decided _ rfl)
  | cons condition result rest, i + 1, passed, decided => by
    obtain ⟨refused, passed⟩ := List.forall_mem_cons.mp passed
    rw [eval_cons_of_refused refused, rest.eval_of_passed i passed decided]
    simp only [run, toList, readsOf, List.take_succ_cons, List.map_cons, List.flatMap_cons, List.getElem?_cons_succ,
      List.append_assoc]

theorem refused_before_firstUnrefused (context : Context) (fields : Fields) (branches : List (Expr × Expr)) :
    ∀ condition ∈ (branches.take (firstUnrefused context fields branches)).map Prod.fst,
      condition.isRefused context fields = true := by
  intro condition member
  obtain ⟨branch, among, rfl⟩ := List.mem_map.mp member
  obtain ⟨position, before, rfl⟩ := List.mem_take_iff_getElem.mp among
  have passed := List.not_of_lt_findIdx (Nat.lt_of_lt_of_le before (Nat.min_le_left _ _))
  simpa only [Bool.not_eq_false'] using passed

theorem not_refused_at_firstUnrefused (context : Context) (fields : Fields) (branches : List (Expr × Expr)) :
    ∀ branch, branches[firstUnrefused context fields branches]? = some branch →
      branch.1.isRefused context fields = false := by
  intro branch found
  obtain ⟨inside, rfl⟩ := List.getElem?_eq_some_iff.mp found
  have decided : (!branches[firstUnrefused context fields branches].1.isRefused context fields) = true :=
    List.findIdx_getElem (w := inside)
  simpa only [Bool.not_eq_true'] using decided

theorem result_taken (kind : Kind) (condition result : Expr) :
    (taken context fields kind (condition, result)).result =
      match condition.verdict context fields with
      | .error error => .error error
      | .ok _ => if result.kind = kind then result.value context fields else result.valueAs kind context fields := by
  rw [taken, Expr.verdict]
  cases outcome : (condition.eval context fields).truth.result with
  | error error => rw [Traced.bind_of_error outcome]
  | ok matched =>
    rw [Traced.bind_of_ok outcome]
    exact apply_ite Traced.result _ _ _

end Branches

namespace Expr

/-- The first branch of a switch is one like the others, with a result that has the kind of the switch. -/
theorem eval_switch_of_passed {condition result : Expr} {others : Branches} (i : Nat)
    (passed : ∀ test ∈ (((condition, result) :: others.toList).take i).map Prod.fst,
      test.isRefused context fields = true)
    (decided : ∀ branch, ((condition, result) :: others.toList)[i]? = some branch →
      branch.1.isRefused context fields = false) :
    (switch condition result others).eval context fields =
      Branches.run context fields result.kind ((((condition, result) :: others.toList).take i).map Prod.fst)
        ((condition, result) :: others.toList)[i]? := by
  have whole := @Branches.eval_of_passed context fields result.kind (.cons condition result others) i passed decided
  rw [Branches.eval, if_pos rfl] at whole
  exact whole

/-- A switch comes to what its first branch does whose condition is not refused, and to nothing if there
is none. What it comes to and what it reads stay the same when the results before that branch and the
branches behind it are exchanged for any others, as long as the first result keeps its kind. -/
theorem switch_first_match (condition result : Expr) (others : Branches) (context : Context) (fields : Fields) :
    let branches := (condition, result) :: others.toList
    let i := Branches.firstUnrefused context fields branches
    ((switch condition result others).value context fields =
      match branches[i]? with
      | none => .ok .empty
      | some (test, chosen) =>
        match test.verdict context fields with
        | .error error => .error error
        | .ok _ =>
          if 0 < i ∧ chosen.kind ≠ result.kind then chosen.valueAs result.kind context fields
          else chosen.value context fields) ∧
    ∀ (newCondition newResult : Expr) (newOthers : Branches),
      let exchanged := (newCondition, newResult) :: newOthers.toList
      (exchanged.take i).map Prod.fst = (branches.take i).map Prod.fst → exchanged[i]? = branches[i]? →
      newResult.kind = result.kind →
      (switch newCondition newResult newOthers).eval context fields =
        (switch condition result others).eval context fields := by
  intro branches i
  have passed := Branches.refused_before_firstUnrefused context fields branches
  have decided := Branches.not_refused_at_firstUnrefused context fields branches
  constructor
  · rw [value, eval_switch_of_passed i passed decided]
    show (branches[i]?.elim (.pure .empty) (Branches.taken context fields result.kind)).result = _
    cases found : branches[i]? with
    | none => rfl
    | some branch =>
      obtain ⟨test, chosen⟩ := branch
      have trusted : i = 0 → chosen.kind = result.kind := by
        intro first
        rw [first] at found
        cases found
        rfl
      have converted : (if chosen.kind = result.kind then chosen.value context fields
            else chosen.valueAs result.kind context fields) =
          if 0 < i ∧ chosen.kind ≠ result.kind then chosen.valueAs result.kind context fields
          else chosen.value context fields := by
        by_cases same : chosen.kind = result.kind
        · rw [if_pos same, if_neg fun differs => differs.2 same]
        · rw [if_neg same, if_pos ⟨Nat.pos_of_ne_zero fun first => same (trusted first), same⟩]
      simp only [Option.elim_some, Branches.result_taken, converted]
  · intro newCondition newResult newOthers exchanged same kept kinded
    rw [eval_switch_of_passed i passed decided, eval_switch_of_passed i (same ▸ passed) (kept ▸ decided)]
    show Branches.run context fields newResult.kind ((exchanged.take i).map Prod.fst) exchanged[i]? = _
    rw [same, kept, kinded]

/-- A switch over a flag whose second branch matches always, with a text for a number. -/
def flagOrText (first : Expr) (further : Branches) : Expr :=
  switch (field ⟨0, "flag", .boolean⟩) first (.cons (constant (.boolean true)) (constant (.string "2")) further)

/-- The result that is passed may fail, and so may the condition behind the match. -/
theorem switch_first_match_flagOrText :
    let failing := binary (.arithmetic .div) .int32 .wrap (constant (.int32 1)) (constant (.int32 0))
    let further := Branches.cons (constant (.string "neither")) failing .nil
    (flagOrText (constant (.int32 1)) .nil).value .detached (fun _ => some (.boolean false)) = .ok (.int32 2) ∧
      failing.kind = .int32 ∧
      (flagOrText failing further).eval .detached (fun _ => some (.boolean false)) =
        (flagOrText (constant (.int32 1)) .nil).eval .detached fun _ => some (.boolean false) := by
  intro failing further
  refine ⟨by rfl, rfl, ?_⟩
  exact (switch_first_match _ _ _ .detached fun _ => some (.boolean false)).2 _ failing _ rfl rfl rfl

end Expr

end ReportEngine
