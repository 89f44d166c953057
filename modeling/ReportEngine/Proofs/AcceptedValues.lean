import Mathlib.Data.List.Forall2
import ReportEngine.Aggregate
import ReportEngine.Proofs.ExactDecimals
import ReportEngine.Proofs.ExactIntegers

/-! Aggregates as functions of the values that were accepted. A push that fails leaves no trace, so the count, the
sum and the selected value keep in step with the list of all values pushed with success. -/

namespace ReportEngine

namespace Decimal

theorem toRat_add (left right : Decimal) : (left.add right).toRat = left.toRat + right.toRat := by
  unfold add
  split
  next zero => rw [toRat_atLeastScale, toRat_zero (beq_iff_eq.mp zero), add_zero]
  next =>
    split
    next zero => rw [toRat_atLeastScale, toRat_zero (beq_iff_eq.mp zero), zero_add]
    next =>
      have common (scale : ℤ) (number : ℚ) : number * 10 ^ scale * 10 ^ (-scale) = number := by
        rw [mul_assoc, ← ten_zpow_add, add_neg_cancel, zpow_zero, mul_one]
      rw [toRat, Int.cast_add, digitsAt_cast (le_max_left _ _), digitsAt_cast (le_max_right _ _), add_mul, common, common]

/-- A running sum is exact, also where a zero is left out of it. -/
theorem toRat_accumulate (sum addend : Decimal) : (sum.accumulate addend).toRat = sum.toRat + addend.toRat := by
  unfold accumulate
  split
  next zero => rw [toRat_zero (beq_iff_eq.mp zero), add_zero]
  next =>
    split
    next zero => rw [toRat_zero (beq_iff_eq.mp zero), zero_add]
    next => exact toRat_add sum addend

end Decimal

namespace AggregateFn

/-- Whether a function adds values up, for which they must convert to decimals. -/
def adds : AggregateFn → Bool
  | sum | avg => true
  | count | min | max | first | last => false

/-- Which comparison with the selected value makes a function take another one in its place. -/
inductive Prefers : AggregateFn → Ordering → Prop
  | min : Prefers min .lt
  | max : Prefers max .gt

/-- The values that a function takes in: all but the empty one, and of those that it adds up the decimals. -/
def accepts (fn : AggregateFn) (value : Value) : Bool :=
  value ≠ .empty && (!fn.adds || value.toDecimal.isOk)

end AggregateFn

/-- The exact sum of what values are as decimals. -/
def IsTotal (values : List Value) (total : ℚ) : Prop :=
  ∃ addends, List.Forall₂ (fun value addend => value.toDecimal = .ok addend) values addends ∧
    total = (addends.map Decimal.toRat).sum

theorem IsTotal.append {values : List Value} {total : ℚ} {value : Value} {addend : Decimal}
    (sums : IsTotal values total) (converted : value.toDecimal = .ok addend) :
    IsTotal (values ++ [value]) (total + addend.toRat) := by
  obtain ⟨addends, converts, rfl⟩ := sums
  refine ⟨addends ++ [addend], List.rel_append converts (.cons converted .nil), ?_⟩
  rw [List.map_append, List.sum_append, List.map_singleton, List.sum_singleton]

namespace Accumulator

variable {acc before after : Accumulator} {value : Value}

/-- The accumulator after a push, and as it was if the push fails. -/
def pushOrKeep (acc : Accumulator) (value : Value) : Accumulator := (acc.push value).toOption.getD acc

/-- Pushes values one after the other. After a push that fails the run goes on. -/
def pushEach (acc : Accumulator) (values : List Value) : Accumulator := values.foldl pushOrKeep acc

/-- The values of a run other than the empty one whose push succeeds, in order. -/
def accepted (acc : Accumulator) : List Value → List Value
  | [] => []
  | value :: rest =>
    if value ≠ .empty ∧ (acc.push value).isOk then value :: (acc.pushOrKeep value).accepted rest
    else (acc.pushOrKeep value).accepted rest

theorem pushEach_cons (acc : Accumulator) (value : Value) (rest : List Value) :
    acc.pushEach (value :: rest) = (acc.pushOrKeep value).pushEach rest := rfl

section Steps

/-- All that taking in a value does to an accumulator. -/
structure Takes (before : Accumulator) (value : Value) (after : Accumulator) : Prop where
  fn : after.fn = before.fn
  count : after.count = before.count + 1
  summed : before.fn.adds = true →
    ∃ addend, value.toDecimal = .ok addend ∧ after.sum = before.sum.accumulate addend
  first : before.fn = .first → after.selected = some (before.selected.getD value)
  last : before.fn = .last → after.selected = some value
  best : ∀ {wanted}, before.fn.Prefers wanted → after.selected = some (selectBy wanted before.selected value)

theorem takes_of_push (filled : value ≠ .empty) (pushed : before.push value = .ok after) :
    Takes before value after := by
  rw [push, if_neg filled] at pushed
  obtain ⟨fn, count, sum, selected⟩ := before
  cases fn with
  | sum | avg =>
    obtain ⟨addend, converted, rfl⟩ := map_eq_ok pushed
    exact ⟨rfl, rfl, fun _ => ⟨addend, converted, rfl⟩, nofun, nofun, nofun⟩
  | count =>
    cases pushed
    exact ⟨rfl, rfl, nofun, nofun, nofun, nofun⟩
  | first =>
    cases pushed
    exact ⟨rfl, rfl, nofun, fun _ => rfl, nofun, nofun⟩
  | last =>
    cases pushed
    exact ⟨rfl, rfl, nofun, nofun, fun _ => rfl, nofun⟩
  | min =>
    cases pushed
    exact ⟨rfl, rfl, nofun, nofun, nofun, fun | .min => rfl⟩
  | max =>
    cases pushed
    exact ⟨rfl, rfl, nofun, nofun, nofun, fun | .max => rfl⟩

/-- Only sums can fail to take a value in. -/
theorem isOk_push (filled : value ≠ .empty) :
    (acc.push value).isOk = (!acc.fn.adds || value.toDecimal.isOk) := by
  rw [push, if_neg filled]
  obtain ⟨fn, count, sum, selected⟩ := acc
  cases fn with
  | sum | avg =>
    simp only [take, AggregateFn.adds]
    cases value.toDecimal <;> rfl
  | count | min | max | first | last => rfl

/-- A value is accepted and taken in, or it is not and changes nothing. -/
theorem pushOrKeep_cases (acc : Accumulator) (value : Value) :
    acc.fn.accepts value = true ∧ Takes acc value (acc.pushOrKeep value) ∨
      acc.fn.accepts value = false ∧ acc.pushOrKeep value = acc := by
  by_cases filled : value = .empty
  · subst filled
    exact .inr ⟨rfl, rfl⟩
  · have accepts : acc.fn.accepts value = (acc.push value).isOk := by
      simp [AggregateFn.accepts, filled, isOk_push filled]
    rw [accepts, pushOrKeep]
    cases pushed : acc.push value with
    | ok after => exact .inl ⟨rfl, takes_of_push filled pushed⟩
    | error _ => exact .inr ⟨rfl, rfl⟩

theorem fn_pushOrKeep (acc : Accumulator) (value : Value) : (acc.pushOrKeep value).fn = acc.fn := by
  obtain ⟨-, takes⟩ | ⟨-, same⟩ := acc.pushOrKeep_cases value
  · exact takes.fn
  · rw [same]

theorem accepted_cons (acc : Accumulator) (value : Value) (rest : List Value) :
    acc.accepted (value :: rest) =
      if acc.fn.accepts value then value :: (acc.pushOrKeep value).accepted rest
      else (acc.pushOrKeep value).accepted rest := by
  rw [accepted]
  by_cases filled : value = .empty
  · simp [filled, AggregateFn.accepts]
  · simp [filled, AggregateFn.accepts, isOk_push filled]

/-- What is accepted does not depend on the run. -/
theorem accepted_eq_filter (acc : Accumulator) (values : List Value) :
    acc.accepted values = values.filter acc.fn.accepts := by
  induction values generalizing acc with
  | nil => rfl
  | cons value rest ih => rw [accepted_cons, ih, fn_pushOrKeep, List.filter_cons]

end Steps

section Runs

variable {taken : List Value}

/-- An accumulator that has taken in these values. -/
structure Holds (acc : Accumulator) (taken : List Value) : Prop where
  count : acc.count = taken.length
  total : acc.fn.adds = true → IsTotal taken acc.sum.toRat
  first : acc.fn = .first → acc.selected = taken.head?
  last : acc.fn = .last → acc.selected = taken.getLast?
  best : ∀ {wanted}, acc.fn.Prefers wanted →
    taken = [] ∧ acc.selected = none ∨ ∃ value ∈ taken, acc.selected = some value

theorem Holds.start (fn : AggregateFn) : Holds (start fn) [] :=
  ⟨rfl, fun _ => ⟨[], .nil, Decimal.toRat_zero rfl⟩, fun _ => rfl, fun _ => rfl, fun _ => .inl ⟨rfl, rfl⟩⟩

theorem Holds.take (holds : Holds before taken) (takes : Takes before value after) :
    Holds after (taken ++ [value]) := by
  refine ⟨?_, ?_, ?_, ?_, ?_⟩
  · rw [takes.count, holds.count, List.length_append, List.length_singleton]
  · intro adds
    rw [takes.fn] at adds
    obtain ⟨addend, converted, sum⟩ := takes.summed adds
    rw [sum, Decimal.toRat_accumulate]
    exact (holds.total adds).append converted
  · intro first
    rw [takes.fn] at first
    rw [takes.first first, holds.first first]
    cases taken <;> rfl
  · intro last
    rw [takes.fn] at last
    rw [takes.last last, List.getLast?_concat]
  · intro wanted prefers
    rw [takes.fn] at prefers
    have new : value ∈ taken ++ [value] := List.mem_append_right taken (.head [])
    refine .inr ?_
    rw [takes.best prefers]
    obtain ⟨-, none⟩ | ⟨current, old, selected⟩ := holds.best prefers
    · exact ⟨value, new, by rw [none]; rfl⟩
    · rw [selected, selectBy]
      split
      · exact ⟨value, new, rfl⟩
      · exact ⟨current, List.mem_append_left [value] old, rfl⟩

/-- By induction on the values: a failed push neither counts nor is accepted, so both sides stay in step. -/
theorem Holds.pushEach (holds : Holds acc taken) (values : List Value) :
    Holds (acc.pushEach values) (taken ++ acc.accepted values) := by
  induction values generalizing acc taken with
  | nil =>
    rw [accepted, List.append_nil]
    exact holds
  | cons value rest ih =>
    rw [accepted_cons]
    obtain ⟨accepts, takes⟩ | ⟨refuses, same⟩ := acc.pushOrKeep_cases value
    · rw [if_pos accepts, pushEach_cons, List.append_cons]
      exact ih (holds.take takes)
    · rw [if_neg (Bool.eq_false_iff.mp refuses), pushEach_cons, same]
      exact ih holds

theorem fn_pushEach (acc : Accumulator) (values : List Value) : (acc.pushEach values).fn = acc.fn := by
  induction values generalizing acc with
  | nil => rfl
  | cons value rest ih => rw [pushEach_cons, ih, fn_pushOrKeep]

/-- Averages add up what sums do. -/
theorem pushEach_average (acc : Accumulator) (values : List Value) (sums : acc.fn = .sum) :
    ({ acc with fn := .avg } : Accumulator).pushEach values = { acc.pushEach values with fn := .avg } := by
  induction values generalizing acc with
  | nil => rfl
  | cons value rest ih =>
    have step : ({ acc with fn := .avg } : Accumulator).pushOrKeep value = { acc.pushOrKeep value with fn := .avg } := by
      obtain ⟨fn, count, sum, selected⟩ := acc
      cases sums
      simp only [pushOrKeep, push, take]
      split
      next => rfl
      next => cases value.toDecimal <;> rfl
    rw [pushEach_cons, pushEach_cons, step, ih _ ((fn_pushOrKeep acc value).trans sums)]

end Runs

section Results

variable {taken : List Value}

theorem Holds.finish_count (holds : Holds acc taken) (counts : acc.fn = .count) (fits : taken.length ≤ 0x7FFFFFFF) :
    ∃ n : Int32, acc.finish = .ok (.int32 n) ∧ n.toInt = taken.length := by
  have within : Int32.Fits acc.count := by
    rw [holds.count]
    constructor <;> omega
  refine ⟨Int32.ofInt acc.count, ?_, ?_⟩
  · rw [finish, if_pos counts, Int32.ofInt?_of_fits within]
  · rw [Int32.toInt_ofInt_of_fits within, holds.count]

theorem Holds.finish_count_beyond (holds : Holds acc taken) (counts : acc.fn = .count)
    (beyond : 0x7FFFFFFF < taken.length) : acc.finish = .error (.overflow "count" .int32) := by
  have outside : ¬Int32.Fits acc.count := by
    rw [holds.count]
    rintro ⟨-, below⟩
    omega
  rw [finish, if_pos counts, Int32.ofInt?_of_not_fits outside]

theorem Holds.finish_empty (holds : Holds acc []) (other : acc.fn ≠ .count) : acc.finish = .ok .empty := by
  have none : acc.count = 0 := holds.count
  rw [finish, if_neg other, if_pos none]

theorem Holds.count_ne_zero (holds : Holds acc taken) (filled : taken ≠ []) : acc.count ≠ 0 := by
  rw [holds.count]
  exact fun none => filled (List.eq_nil_of_length_eq_zero none)

theorem Holds.finish_sum (holds : Holds acc taken) (sums : acc.fn = .sum) (filled : taken ≠ []) :
    acc.finish = .ok (.decimal acc.sum) := by
  rw [finish, if_neg (by rw [sums]; decide), if_neg (holds.count_ne_zero filled), sums]

theorem Holds.finish_avg (holds : Holds acc taken) (averages : acc.fn = .avg) (filled : taken ≠ []) :
    acc.finish = .ok (.decimal (acc.sum.div (.ofInt taken.length))) := by
  rw [finish, if_neg (by rw [averages]; decide), if_neg (holds.count_ne_zero filled), averages, holds.count]

theorem Holds.finish_selected (holds : Holds acc taken) (counts : acc.fn ≠ .count) (adds : acc.fn.adds = false)
    (selected : acc.selected = some value) (filled : taken ≠ []) : acc.finish = .ok value := by
  rw [finish, if_neg counts, if_neg (holds.count_ne_zero filled), selected]
  split
  next sums => cases adds.symm.trans (congrArg AggregateFn.adds sums)
  next averages => cases adds.symm.trans (congrArg AggregateFn.adds averages)
  next => rfl

/-- A function that neither counts nor adds selects one of the values. -/
theorem Holds.selected_mem (holds : Holds acc taken) (counts : acc.fn ≠ .count) (adds : acc.fn.adds = false)
    (filled : taken ≠ []) : ∃ value ∈ taken, acc.selected = some value := by
  have best : ∀ wanted, acc.fn.Prefers wanted → ∃ value ∈ taken, acc.selected = some value := by
    intro wanted prefers
    exact (holds.best prefers).resolve_left fun none => filled none.1
  cases fn : acc.fn with
  | sum | avg =>
    rw [fn] at adds
    cases adds
  | count => exact absurd fn counts
  | first =>
    refine ⟨taken.head filled, List.head_mem filled, ?_⟩
    rw [holds.first fn, List.head?_eq_some_head filled]
  | last =>
    refine ⟨taken.getLast filled, List.getLast_mem filled, ?_⟩
    rw [holds.last fn, List.getLast?_eq_some_getLast filled]
  | min => exact best .lt (fn ▸ .min)
  | max => exact best .gt (fn ▸ .max)

end Results

end Accumulator

namespace AggregateFn

/-- The values that a run of a function over some values accepts. -/
def taken (fn : AggregateFn) (values : List Value) : List Value := (Accumulator.start fn).accepted values

/-- What a function makes of some values, passing over those whose push fails. -/
def outcome (fn : AggregateFn) (values : List Value) : Except ExprError Value :=
  ((Accumulator.start fn).pushEach values).finish

variable {fn : AggregateFn} {values : List Value}

theorem holds_taken (fn : AggregateFn) (values : List Value) :
    ((Accumulator.start fn).pushEach values).Holds (fn.taken values) :=
  (Accumulator.Holds.start fn).pushEach values

theorem fn_run (fn : AggregateFn) (values : List Value) : ((Accumulator.start fn).pushEach values).fn = fn :=
  Accumulator.fn_pushEach (.start fn) values

theorem outcome_sum (filled : sum.taken values ≠ []) :
    sum.outcome values = .ok (.decimal ((Accumulator.start sum).pushEach values).sum) ∧
      IsTotal (sum.taken values) ((Accumulator.start sum).pushEach values).sum.toRat := by
  have holds := holds_taken sum values
  have sums := fn_run sum values
  refine ⟨holds.finish_sum sums filled, holds.total ?_⟩
  rw [sums]
  rfl

/-- The quotient of an average is what the operator yields: there is at least one value to divide by. -/
theorem outcome_avg (filled : avg.taken values ≠ []) (policy : OverflowPolicy) :
    avg.outcome values =
      Arithmetic.div.apply policy (.decimal ((Accumulator.start sum).pushEach values).sum)
        (.decimal (.ofInt (avg.taken values).length)) := by
  have divisor : (Decimal.ofInt (avg.taken values).length).isZero = false := by
    have positive := List.length_pos_iff.mpr filled
    simp only [Decimal.ofInt, Decimal.isZero, beq_eq_false_iff_ne]
    omega
  have run : (Accumulator.start avg).pushEach values = { (Accumulator.start sum).pushEach values with fn := .avg } :=
    Accumulator.pushEach_average (.start sum) values rfl
  rw [outcome, (holds_taken avg values).finish_avg (fn_run avg values) filled, run]
  simp only [Arithmetic.apply, Arithmetic.applyDecimal, divisor]
  rfl

theorem outcome_selected (counts : fn ≠ .count) (adds : fn.adds = false) (filled : fn.taken values ≠ []) :
    ∃ value ∈ fn.taken values, fn.outcome values = .ok value := by
  have holds := holds_taken fn values
  rw [← fn_run fn values] at counts adds
  obtain ⟨value, member, selected⟩ := holds.selected_mem counts adds filled
  exact ⟨value, member, holds.finish_selected counts adds selected filled⟩

theorem outcome_first {value : Value} {rest : List Value} (taken : first.taken values = value :: rest) :
    first.outcome values = .ok value := by
  have holds := holds_taken first values
  have fn := fn_run first values
  apply holds.finish_selected (by rw [fn]; decide) (by rw [fn]; rfl)
  · rw [holds.first fn, taken, List.head?_cons]
  · rw [taken]
    exact List.cons_ne_nil value rest

theorem outcome_last {value : Value} {front : List Value} (taken : last.taken values = front ++ [value]) :
    last.outcome values = .ok value := by
  have holds := holds_taken last values
  have fn := fn_run last values
  apply holds.finish_selected (by rw [fn]; decide) (by rw [fn]; rfl)
  · rw [holds.last fn, taken, List.getLast?_concat]
  · rw [taken]
    exact List.concat_ne_nil value front

/-- The kind that a function declares for values of one kind is the kind of what it makes of them. -/
theorem kind_over {kind : Kind} (filled : fn.taken values ≠ []) (alike : ∀ value ∈ fn.taken values, value.kind = kind)
    (fits : fn = .count → (fn.taken values).length ≤ 0x7FFFFFFF) :
    ∃ result, fn.outcome values = .ok result ∧ result.kind = fn.resultKind kind := by
  have holds := holds_taken fn values
  cases fn with
  | count =>
    obtain ⟨n, finished, -⟩ := holds.finish_count (fn_run count values) (fits rfl)
    exact ⟨_, finished, rfl⟩
  | sum => exact ⟨_, (outcome_sum filled).1, rfl⟩
  | avg => exact ⟨_, holds.finish_avg (fn_run avg values) filled, rfl⟩
  | min | max | first | last =>
    obtain ⟨value, member, finished⟩ := outcome_selected (by decide) rfl filled
    exact ⟨value, finished, alike value member⟩

/-- Whatever is pushed, an aggregate is a function of the values accepted, and these are all but the empty ones and
those that a sum cannot convert. -/
theorem outcome_eq_reference (values : List Value) :
    (∀ fn : AggregateFn, fn.taken values = values.filter fn.accepts) ∧
      ((count.taken values).length ≤ 0x7FFFFFFF →
        ∃ n : Int32, count.outcome values = .ok (.int32 n) ∧ n.toInt = (count.taken values).length) ∧
      (0x7FFFFFFF < (count.taken values).length → count.outcome values = .error (.overflow "count" .int32)) ∧
      (∀ fn : AggregateFn, fn ≠ .count → fn.taken values = [] → fn.outcome values = .ok .empty) ∧
      (sum.taken values ≠ [] →
        ∃ total : Decimal, sum.outcome values = .ok (.decimal total) ∧ IsTotal (sum.taken values) total.toRat) ∧
      (avg.taken values ≠ [] →
        ∃ total : Decimal, sum.outcome values = .ok (.decimal total) ∧
          ∀ policy, avg.outcome values =
            Arithmetic.div.apply policy (.decimal total) (.decimal (.ofInt (avg.taken values).length))) ∧
      (∀ value rest, first.taken values = value :: rest → first.outcome values = .ok value) ∧
      (∀ front value, last.taken values = front ++ [value] → last.outcome values = .ok value) ∧
      ∀ (fn : AggregateFn) (kind : Kind), fn.taken values ≠ [] → (∀ value ∈ fn.taken values, value.kind = kind) →
        (fn = .count → (fn.taken values).length ≤ 0x7FFFFFFF) →
          ∃ result, fn.outcome values = .ok result ∧ result.kind = fn.resultKind kind := by
  have filtered : ∀ fn : AggregateFn, fn.taken values = values.filter fn.accepts := fun fn =>
    Accumulator.accepted_eq_filter (.start fn) values
  refine ⟨filtered, ?_, ?_, ?_, ?_, ?_, fun _ _ => outcome_first, fun _ _ => outcome_last, fun _ _ => kind_over⟩
  · exact (holds_taken count values).finish_count (fn_run count values)
  · exact (holds_taken count values).finish_count_beyond (fn_run count values)
  · intro fn other none
    have holds := holds_taken fn values
    rw [none] at holds
    exact holds.finish_empty (by rwa [fn_run])
  · intro filled
    exact ⟨_, outcome_sum filled⟩
  · intro filled
    have both : sum.taken values = avg.taken values := (filtered sum).trans (filtered avg).symm
    exact ⟨_, (outcome_sum (both ▸ filled)).1, outcome_avg filled⟩

/-- Of a text that is no number, a whole number, the empty value and a decimal, the first is counted but not summed. -/
theorem outcome_eq_reference_mixed :
    let values : List Value := [.string "none", .int32 4, .empty, .decimal ⟨25, 1⟩]
    (∃ total : Decimal, sum.outcome values = .ok (.decimal total) ∧
        IsTotal [.int32 4, .decimal ⟨25, 1⟩] total.toRat) ∧
      first.outcome values = .ok (.string "none") ∧ last.outcome values = .ok (.decimal ⟨25, 1⟩) ∧
      ∃ n : Int32, count.outcome values = .ok (.int32 n) ∧ n.toInt = 3 := by
  intro values
  obtain ⟨-, counted, -, -, summed, -, first, last, -⟩ := outcome_eq_reference values
  have numbers : sum.taken values = [.int32 4, .decimal ⟨25, 1⟩] := by decide +kernel
  have all : count.taken values = [.string "none", .int32 4, .decimal ⟨25, 1⟩] := by decide +kernel
  rw [numbers] at summed
  rw [all] at counted
  exact ⟨summed nofun, first _ _ rfl, last [.string "none", .int32 4] _ rfl, counted (by decide)⟩

end AggregateFn

end ReportEngine
