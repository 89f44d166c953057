import Mathlib.Data.List.Forall2
import ReportEngine.Report.Interruption
import ReportEngine.Report.Totals

/-! The pass that computes aggregates. All of them advance together, row by row, and each may be dropped at any
row; what is bound in the end is what every aggregate comes to on its own. -/

namespace ReportEngine

namespace AggregateDef

/-- What an aggregate comes to over some rows: its expression has a value on each of them, all these values are
taken in one after the other, and the result of that is the value. -/
def ComesTo (aggregate : AggregateDef) (context : Context) (rows : List Row) (value : Value) : Prop :=
  ∃ values acc, List.Forall₂ (fun row value => aggregate.expr.value context row.fields = .ok value) rows values ∧
    values.foldlM Accumulator.push (.start aggregate.fn) = .ok acc ∧ acc.finish = .ok value

theorem takeRow_eq_ok {aggregate : AggregateDef} {context : Context} {row : Row} {before after : Accumulator} :
    aggregate.takeRow context before row = .ok after ↔
      ∃ value, aggregate.expr.value context row.fields = .ok value ∧ before.push value = .ok after :=
  bind_eq_ok

end AggregateDef

theorem foldlM_push_cons {value : Value} {values : List Value} {before after : Accumulator} :
    (value :: values).foldlM Accumulator.push before = .ok after ↔
      ∃ between, before.push value = .ok between ∧ values.foldlM Accumulator.push between = .ok after := by
  rw [List.foldlM_cons]
  exact bind_eq_ok

namespace RunningTotal

/-- The total after some rows. -/
def takeAll (total : RunningTotal) (context : Context) (rows : List Row) : RunningTotal :=
  rows.foldl (fun total row => total.advance context row) total

variable {context : Context} {total : RunningTotal} {rows : List Row}

@[simp] theorem aggregate_start (aggregate : AggregateDef) : (start aggregate).aggregate = aggregate := rfl

@[simp] theorem aggregate_takeAll (total : RunningTotal) (context : Context) (rows : List Row) :
    (total.takeAll context rows).aggregate = total.aggregate := by
  induction rows generalizing total with
  | nil => rfl
  | cons row rest ih => exact ih (total.advance context row)

theorem taken_advance {row : Row} {after : Accumulator} :
    (total.advance context row).taken = some after ↔
      ∃ before value, total.taken = some before ∧ total.aggregate.expr.value context row.fields = .ok value ∧
        before.push value = .ok after := by
  simp only [advance, Option.bind_eq_some_iff, toOption_eq_some, AggregateDef.takeRow_eq_ok]
  exact ⟨fun ⟨before, held, value, found, pushed⟩ => ⟨before, value, held, found, pushed⟩,
    fun ⟨before, value, held, found, pushed⟩ => ⟨before, held, value, found, pushed⟩⟩

/-- Nothing is lost by dropping a total at the row that it fails on: by induction on the rows, what is left has
taken in the values of all of them. -/
theorem taken_takeAll {after : Accumulator} :
    (total.takeAll context rows).taken = some after ↔
      ∃ before values, total.taken = some before ∧
        List.Forall₂ (fun row value => total.aggregate.expr.value context row.fields = .ok value) rows values ∧
        values.foldlM Accumulator.push before = .ok after := by
  induction rows generalizing total with
  | nil =>
    constructor
    · exact fun held => ⟨after, [], held, .nil, rfl⟩
    · rintro ⟨before, values, held, found, pushed⟩
      cases found
      cases pushed
      exact held
  | cons row rest ih =>
    change ((total.advance context row).takeAll context rest).taken = some after ↔ _
    rw [ih]
    constructor
    · rintro ⟨between, values, held, found, pushed⟩
      obtain ⟨before, value, held, first, taken⟩ := taken_advance.mp held
      exact ⟨before, value :: values, held, .cons first found, foldlM_push_cons.mpr ⟨between, taken, pushed⟩⟩
    · rintro ⟨before, _, held, found, pushed⟩
      cases found with
      | cons first found =>
        obtain ⟨between, taken, pushed⟩ := foldlM_push_cons.mp pushed
        exact ⟨between, _, taken_advance.mpr ⟨before, _, held, first, taken⟩, found, pushed⟩

theorem value?_takeAll (aggregate : AggregateDef) (context : Context) (rows : List Row) (value : Value) :
    ((start aggregate).takeAll context rows).value? = some value ↔ aggregate.ComesTo context rows value := by
  simp only [value?, Option.bind_eq_some_iff, toOption_eq_some, taken_takeAll]
  constructor
  · rintro ⟨acc, ⟨_, values, started, found, pushed⟩, finished⟩
    cases started
    exact ⟨values, acc, found, pushed, finished⟩
  · rintro ⟨values, acc, found, pushed, finished⟩
    exact ⟨acc, ⟨_, values, rfl, found, pushed⟩, finished⟩

/-- The value that a total gives to a name. -/
def boundTo (name : String) (total : RunningTotal) : Option Value :=
  if total.aggregate.name = name then total.value? else none

theorem boundTo_takeAll {aggregate : AggregateDef} {name : String} {value : Value} :
    ((start aggregate).takeAll context rows).boundTo name = some value ↔
      aggregate.name = name ∧ aggregate.ComesTo context rows value := by
  rw [boundTo, aggregate_takeAll, aggregate_start, ← value?_takeAll]
  by_cases named : aggregate.name = name
  · simp [named]
  · simp [named]

theorem boundTo_takeAll_eq_none {aggregate : AggregateDef} {name : String} :
    ((start aggregate).takeAll context rows).boundTo name = none ↔
      (aggregate.name = name → ∀ value, ¬ aggregate.ComesTo context rows value) := by
  rw [Option.eq_none_iff_forall_ne_some]
  simp only [ne_eq, boundTo_takeAll, not_and]
  exact ⟨fun none named value => none value named, fun none value named => none named value⟩

theorem publish_eq (context : Context) (total : RunningTotal) :
    publish context total = { context with aggregates := (publish context total).aggregates } := by
  unfold publish
  split
  next => rfl
  next => rfl

theorem get?_publish (context : Context) (total : RunningTotal) (name : String) :
    (publish context total).aggregates.get? name = (total.boundTo name).or (context.aggregates.get? name) := by
  unfold publish boundTo
  cases total.value? with
  | none => simp
  | some value =>
    simp only [Context.setAggregate, Bindings.get?_insert]
    by_cases same : name = total.aggregate.name
    · simp [same]
    · simp [same, Ne.symm same]

theorem foldl_publish_eq (context : Context) (totals : List RunningTotal) :
    totals.foldl publish context = { context with aggregates := (totals.foldl publish context).aggregates } := by
  induction totals generalizing context with
  | nil => rfl
  | cons total rest ih =>
    rw [List.foldl_cons, ih, publish_eq]

/-- Of several totals for a name the last that has a value counts. -/
theorem get?_foldl_publish (context : Context) (totals : List RunningTotal) (name : String) :
    (totals.foldl publish context).aggregates.get? name =
      (totals.reverse.findSome? (boundTo name)).or (context.aggregates.get? name) := by
  induction totals generalizing context with
  | nil => rfl
  | cons total rest ih =>
    rw [List.foldl_cons, ih, get?_publish, List.reverse_cons, List.findSome?_append, List.findSome?_singleton,
      Option.or_assoc]

end RunningTotal

/-- The totals advance together as each would alone, unless the job is found cancelled. -/
theorem takeRows_cases (context : Context) (interrupted : Nat → Bool) (totals : List RunningTotal) (index : Nat)
    (rows : List Row) :
    takeRows context interrupted totals index rows = .ok (totals.map (·.takeAll context rows)) ∨
      takeRows context interrupted totals index rows = .error .cancelled ∧
        FoundCancelled context interrupted index rows.length := by
  induction rows generalizing totals index with
  | nil => exact .inl (congrArg Except.ok (List.map_id' totals).symm)
  | cons row rest ih =>
    rw [takeRows]
    by_cases found : (context.cancelled || interrupted index) = true
    · rw [if_pos found]
      exact .inr ⟨rfl, .here found⟩
    · rw [if_neg found]
      rcases ih (totals.map (·.advance context row)) (index + 1) with whole | ⟨stopped, found⟩
      · refine .inl (whole.trans (congrArg Except.ok ?_))
        rw [List.map_map]
        rfl
      · exact .inr ⟨stopped, found.later⟩

/-- The last of some definitions of a name that comes to something over the rows comes to the value. -/
def LastComesTo (aggregates : List AggregateDef) (context : Context) (rows : List Row) (name : String)
    (value : Value) : Prop :=
  ∃ earlier aggregate later, aggregates = earlier ++ aggregate :: later ∧ aggregate.name = name ∧
    aggregate.ComesTo context rows value ∧
    ∀ other ∈ later, other.name = name → ∀ found, ¬ other.ComesTo context rows found

/-- What a pass binds. -/
def totalsTable (aggregates : List AggregateDef) (context : Context) (rows : List Row) : Bindings :=
  ((aggregates.map fun aggregate => (RunningTotal.start aggregate).takeAll context rows).foldl
    RunningTotal.publish context).aggregates

theorem get?_totalsTable (aggregates : List AggregateDef) (context : Context) (rows : List Row) (name : String)
    (value : Value) :
    (totalsTable aggregates context.clearAggregates rows).get? name = some value ↔
      LastComesTo aggregates context.clearAggregates rows name value := by
  have empty : context.clearAggregates.aggregates.get? name = none := Bindings.get?_empty name
  rw [totalsTable, RunningTotal.get?_foldl_publish, empty, Option.or_none, ← List.map_reverse, List.findSome?_map,
    List.findSome?_eq_some_iff]
  simp only [Function.comp_apply, RunningTotal.boundTo_takeAll, RunningTotal.boundTo_takeAll_eq_none]
  -- The first of the reversed list that has a value is the last of the list, so both ends swap.
  constructor
  · rintro ⟨later, aggregate, earlier, split, ⟨named, comes⟩, nothing⟩
    refine ⟨earlier.reverse, aggregate, later.reverse, ?_, named, comes, ?_⟩
    · rw [List.reverse_eq_iff] at split
      rw [split, List.reverse_append, List.reverse_cons, List.append_assoc, List.singleton_append]
    · exact fun other member => nothing other (List.mem_reverse.mp member)
  · rintro ⟨earlier, aggregate, later, split, named, comes, nothing⟩
    refine ⟨later.reverse, aggregate, earlier.reverse, ?_, ⟨named, comes⟩, ?_⟩
    · rw [split, List.reverse_append, List.reverse_cons, List.append_assoc, List.singleton_append]
    · exact fun other member => nothing other (List.mem_reverse.mp member)

theorem computeTotals_cases (aggregates : List AggregateDef) (context : Context) (interrupted : Nat → Bool)
    (rows : List Row) :
    computeTotals aggregates context interrupted rows =
        .ok { context with aggregates := totalsTable aggregates context.clearAggregates rows } ∨
      computeTotals aggregates context interrupted rows = .error .cancelled ∧
        FoundCancelled context interrupted 0 rows.length := by
  rw [computeTotals]
  by_cases none : aggregates.isEmpty = true
  · rw [if_pos none, List.isEmpty_iff.mp none]
    exact .inl rfl
  · rw [if_neg none]
    rcases takeRows_cases context.clearAggregates interrupted (aggregates.map .start) 0 rows with whole | ⟨stopped, found⟩
    · refine .inl ?_
      rw [whole, List.map_map]
      exact congrArg Except.ok (RunningTotal.foldl_publish_eq _ _)
    · refine .inr ⟨?_, found⟩
      rw [stopped]
      rfl

end ReportEngine
