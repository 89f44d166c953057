import ReportEngine.Proofs.AcceptedValues
import ReportEngine.Proofs.ValueOrder

/-! Minimum and maximum. Values without doubles that compare at all stand in one line, so a run that replaces the
selected value on a strict comparison only ends with the first of those that no other one is preferred to. -/

namespace ReportEngine

open Value

namespace Value

variable {wanted : Ordering} {values seen : List Value} {a b current value : Value}

/-- Some value is there, none is a double, and any two that are not empty compare. -/
structure Ranked (values : List Value) : Prop where
  nonempty : ∃ value ∈ values, value ≠ empty
  noDouble : ∀ value ∈ values, value.kind ≠ .double
  pairs : ∀ a ∈ values, ∀ b ∈ values, a ≠ empty → b ≠ empty → a.compare b ≠ none

theorem Ranked.perm {shuffled : List Value} (ranked : Ranked values) (perm : shuffled.Perm values) :
    Ranked shuffled := by
  obtain ⟨value, member, filled⟩ := ranked.nonempty
  refine ⟨⟨value, perm.mem_iff.mpr member, filled⟩, ?_, ?_⟩
  · intro value member
    exact ranked.noDouble value (perm.mem_iff.mp member)
  · intro a left b right
    exact ranked.pairs a (perm.mem_iff.mp left) b (perm.mem_iff.mp right)

/-- All the values compare as they stand in line. -/
def InLine (values : List Value) : Prop := ∀ a ∈ values, ∀ b ∈ values, a.compare b = some (lineUp a b)

/-- Without doubles, values compare within a kind, and whole numbers with decimals. -/
theorem compare_ne_none_iff (left : a ≠ empty ∧ a.kind ≠ .double) (right : b ≠ empty ∧ b.kind ≠ .double) :
    a.compare b ≠ none ↔ a.kind = b.kind ∨ a.kind.isNumeric = true ∧ b.kind.isNumeric = true := by
  cases a with
  | empty => exact absurd rfl left.1
  | double _ => exact absurd rfl left.2
  | boolean _ | int32 _ | decimal _ | string _ | dateTime _ =>
    cases b with
    | empty => exact absurd rfl right.1
    | double _ => exact absurd rfl right.2
    | boolean _ | int32 _ | decimal _ | string _ | dateTime _ =>
      simp [compare, compareNumbers, toDecimal, kind, Kind.isNumeric]

theorem compare_empty_of_ne (filled : value ≠ empty) : empty.compare value = some .lt := by
  cases value with
  | empty => exact absurd rfl filled
  | _ => rfl

theorem compare_ne_none (pair : a ≠ empty → b ≠ empty → a.compare b ≠ none) : a.compare b ≠ none := by
  by_cases left : a = empty
  · subst left
    cases b <;> nofun
  · by_cases right : b = empty
    · subst right
      cases a <;> nofun
    · exact pair left right

theorem Ranked.inLine (ranked : Ranked values) : InLine values := by
  intro a left b right
  obtain ⟨order, compared⟩ := Option.ne_none_iff_exists'.mp (compare_ne_none (ranked.pairs a left b right))
  -- A decimal is blurred with a double, and there is none.
  have clear : ¬Blurred a b := by
    rintro ⟨_, _, -, ⟨-, rfl⟩ | ⟨rfl, -⟩⟩
    · exact ranked.noDouble _ right rfl
    · exact ranked.noDouble _ left rfl
  rw [compared, compare_eq_lineUp compared clear]

theorem InLine.not_wanted_self (line : InLine values) (member : value ∈ values) (strict : wanted ≠ .eq) :
    value.compare value ≠ some wanted := by
  have same : lineUp value value = .eq := Std.ReflCmp.compare_self
  rw [line value member value member, same]
  exact fun wants => strict (Option.some.inj wants).symm

theorem swap_ne (strict : wanted ≠ .eq) : wanted.swap ≠ wanted ∧ wanted.swap ≠ .eq := by
  cases wanted with
  | eq => exact absurd rfl strict
  | lt | gt => exact ⟨nofun, nofun⟩

/-- What is not preferred to a value comes after all that is. -/
theorem lineUp_of_not_wanted (strict : wanted ≠ .eq) (behind : lineUp a current ≠ wanted)
    (ahead : lineUp b current = wanted) : lineUp a b = wanted.swap := by
  cases wanted with
  | eq => exact absurd rfl strict
  | lt =>
    have back : (lineUp current a).isLE = true :=
      Ordering.isLE_iff_ne_gt.mpr fun below => behind (Std.OrientedCmp.lt_of_gt below)
    exact Std.OrientedCmp.gt_of_lt (Std.TransCmp.lt_of_lt_of_isLE ahead back)
  | gt =>
    have back : (lineUp a current).isLE = true := Ordering.isLE_iff_ne_gt.mpr behind
    exact Std.TransCmp.lt_of_isLE_of_lt back (Std.OrientedCmp.lt_of_gt ahead)

/-- The first of some values that no other one is preferred to. -/
structure Leads (wanted : Ordering) (values : List Value) (picked : Value) : Prop where
  filled : picked ≠ empty
  unbeaten : ∀ value ∈ values, value ≠ empty → value.compare picked ≠ some wanted
  first : ∃ front back, values = front ++ picked :: back ∧ ∀ value ∈ front, value.compare picked ≠ some .eq

theorem Leads.mem {picked : Value} (leads : Leads wanted values picked) : picked ∈ values := by
  obtain ⟨front, back, rfl, -⟩ := leads.first
  exact List.mem_append_right front (.head back)

/-- A value that is not preferred changes nothing. -/
theorem Leads.keep (leads : Leads wanted seen current) (passed : value ≠ empty → value.compare current ≠ some wanted) :
    Leads wanted (seen ++ [value]) current := by
  refine ⟨leads.filled, ?_, ?_⟩
  · intro other member filled
    rcases List.mem_append.mp member with old | new
    · exact leads.unbeaten other old filled
    · rw [List.mem_singleton.mp new] at filled ⊢
      exact passed filled
  · obtain ⟨front, back, rfl, earlier⟩ := leads.first
    exact ⟨front, back ++ [value], by simp, earlier⟩

/-- A value that is preferred comes before all others, so none of them is equal to it. -/
theorem Leads.replace (strict : wanted ≠ .eq) (line : InLine (seen ++ [value])) (leads : Leads wanted seen current)
    (filled : value ≠ empty) (better : value.compare current = some wanted) :
    Leads wanted (seen ++ [value]) value := by
  have last : value ∈ seen ++ [value] := List.mem_append_right seen (.head [])
  have old : ∀ {other}, other ∈ seen → other ∈ seen ++ [value] := List.mem_append_left [value]
  have ahead : lineUp value current = wanted :=
    Option.some.inj ((line value last current (old leads.mem)).symm.trans better)
  have worse : ∀ other ∈ seen, other ≠ empty → other.compare value = some wanted.swap := by
    intro other member present
    have behind : lineUp other current ≠ wanted := by
      intro same
      apply leads.unbeaten other member present
      rw [line other (old member) current (old leads.mem), same]
    rw [line other (old member) value last, lineUp_of_not_wanted strict behind ahead]
  refine ⟨filled, ?_, seen, [], rfl, ?_⟩
  · intro other member present
    rcases List.mem_append.mp member with earlier | new
    · rw [worse other earlier present]
      exact fun same => (swap_ne strict).1 (Option.some.inj same)
    · rw [List.mem_singleton.mp new]
      exact line.not_wanted_self last strict
  · intro other member
    by_cases present : other = empty
    · rw [present, compare_empty_of_ne filled]
      nofun
    · rw [worse other member present]
      exact fun same => (swap_ne strict).2 (Option.some.inj same)

/-- What is selected after some values: nothing as long as all of them were empty. -/
def Selection (wanted : Ordering) (seen : List Value) : Option Value → Prop
  | none => ∀ value ∈ seen, value = empty
  | some picked => Leads wanted seen picked

theorem Selection.skip {selected : Option Value} (selection : Selection wanted seen selected) :
    Selection wanted (seen ++ [empty]) selected := by
  cases selected with
  | none =>
    intro value member
    rcases List.mem_append.mp member with old | new
    · exact selection value old
    · exact List.mem_singleton.mp new
  | some current => exact Leads.keep selection fun filled => absurd rfl filled

theorem Selection.take {selected : Option Value} (strict : wanted ≠ .eq) (line : InLine (seen ++ [value]))
    (selection : Selection wanted seen selected) (filled : value ≠ empty) :
    Selection wanted (seen ++ [value]) (some (Accumulator.selectBy wanted selected value)) := by
  cases selected with
  | none =>
    have last : value ∈ seen ++ [value] := List.mem_append_right seen (.head [])
    refine ⟨filled, ?_, seen, [], rfl, ?_⟩
    · intro other member present
      rcases List.mem_append.mp member with old | new
      · exact absurd (selection other old) present
      · rw [List.mem_singleton.mp new]
        exact line.not_wanted_self last strict
    · intro other member
      rw [selection other member]
      change empty.compare value ≠ some .eq
      rw [compare_empty_of_ne filled]
      nofun
  | some current =>
    by_cases better : value.compare current = some wanted
    · rw [Accumulator.selectBy, if_pos better]
      exact Leads.replace strict line selection filled better
    · rw [Accumulator.selectBy, if_neg better]
      exact Leads.keep selection fun _ => better

end Value

namespace AggregateFn

variable {fn : AggregateFn} {wanted : Ordering} {values seen : List Value}

theorem Prefers.strict (prefers : fn.Prefers wanted) : wanted ≠ .eq := by
  cases prefers <;> nofun

theorem Prefers.adds (prefers : fn.Prefers wanted) : fn.adds = false := by
  cases prefers <;> rfl

theorem Prefers.ne_count (prefers : fn.Prefers wanted) : fn ≠ .count := by
  cases prefers <;> nofun

theorem Prefers.accepts (prefers : fn.Prefers wanted) (value : Value) :
    fn.accepts value = true ↔ value ≠ .empty := by
  simp [AggregateFn.accepts, prefers.adds]

/-- Of two values neither of which is preferred to the other. -/
theorem Prefers.eq_of_neither {order : Ordering} (prefers : fn.Prefers wanted) (forth : order ≠ wanted)
    (back : order.swap ≠ wanted) : order = .eq := by
  cases order with
  | eq => rfl
  | lt =>
    cases prefers with
    | min => exact absurd rfl forth
    | max => exact absurd rfl back
  | gt =>
    cases prefers with
    | min => exact absurd rfl back
    | max => exact absurd rfl forth

/-- A run keeps its selection right: by induction on the values still to come, for any values seen before. -/
theorem selection_pushEach {acc : Accumulator} (prefers : acc.fn.Prefers wanted) (line : InLine (seen ++ values))
    (selection : Selection wanted seen acc.selected) :
    Selection wanted (seen ++ values) (acc.pushEach values).selected := by
  induction values generalizing acc seen with
  | nil =>
    rw [List.append_nil]
    exact selection
  | cons value rest ih =>
    rw [List.append_cons] at line ⊢
    rw [Accumulator.pushEach_cons]
    have before : InLine (seen ++ [value]) := fun a left b right =>
      line a (List.mem_append_left rest left) b (List.mem_append_left rest right)
    obtain ⟨accepted, takes⟩ | ⟨refused, same⟩ := acc.pushOrKeep_cases value
    · apply ih (takes.fn.symm ▸ prefers) line
      rw [takes.best prefers]
      exact selection.take prefers.strict before ((prefers.accepts value).mp accepted)
    · have none : value = .empty := by
        by_contra filled
        rw [(prefers.accepts value).mpr filled] at refused
        cases refused
      rw [same]
      apply ih prefers line
      rw [none]
      exact selection.skip

theorem outcome_leads (prefers : fn.Prefers wanted) (ranked : Ranked values) :
    ∃ picked, fn.outcome values = .ok picked ∧ Leads wanted values picked := by
  have holds := holds_taken fn values
  have runs := fn_run fn values
  obtain ⟨value, member, filled⟩ := ranked.nonempty
  have start : Selection wanted [] (Accumulator.start fn).selected := List.forall_mem_nil _
  have line : InLine ([] ++ values) := ranked.inLine
  have selection := selection_pushEach prefers line start
  rw [List.nil_append] at selection
  cases selected : ((Accumulator.start fn).pushEach values).selected with
  | none =>
    rw [selected] at selection
    exact absurd (selection value member) filled
  | some picked =>
    rw [selected] at selection
    have nonempty : fn.taken values ≠ [] := by
      have accepted : value ∈ fn.taken values := by
        rw [AggregateFn.taken, Accumulator.accepted_eq_filter]
        exact List.mem_filter.mpr ⟨member, (prefers.accepts value).mpr filled⟩
      exact List.ne_nil_of_mem accepted
    refine ⟨picked, ?_, selection⟩
    exact holds.finish_selected (runs.symm ▸ prefers.ne_count) (runs.symm ▸ prefers.adds) selected nonempty

/-- Minimum and maximum are the first of the values that none is preferred to, and equal in any order of the
values. -/
theorem outcome_extremal (prefers : fn.Prefers wanted) (ranked : Ranked values) :
    ∃ picked, fn.outcome values = .ok picked ∧ Leads wanted values picked ∧
      ∀ shuffled : List Value, shuffled.Perm values →
        ∃ other, fn.outcome shuffled = .ok other ∧ other.compare picked = some .eq := by
  obtain ⟨picked, finished, leads⟩ := outcome_leads prefers ranked
  refine ⟨picked, finished, leads, ?_⟩
  intro shuffled perm
  obtain ⟨other, alsoFinished, alsoLeads⟩ := outcome_leads prefers (ranked.perm perm)
  refine ⟨other, alsoFinished, ?_⟩
  have member : other ∈ values := perm.mem_iff.mp alsoLeads.mem
  have compared := ranked.inLine other member picked leads.mem
  have forth := leads.unbeaten other member alsoLeads.filled
  have back := alsoLeads.unbeaten picked (perm.mem_iff.mpr leads.mem) leads.filled
  rw [compare_swap, compared] at back
  rw [compared] at forth
  rw [compared]
  apply congrArg some
  exact prefers.eq_of_neither (fun same => forth (congrArg some same)) fun same => back (congrArg some same)

/-- Of two decimals that are equal and less than all others the first is the minimum. -/
theorem outcome_extremal_tie :
    let values : List Value := [.int32 2, .empty, .decimal ⟨150, 2⟩, .decimal ⟨15, 1⟩, .int32 3]
    Prefers min .lt ∧ Ranked values ∧ min.outcome values = .ok (.decimal ⟨150, 2⟩) ∧
      Leads .lt values (.decimal ⟨150, 2⟩) ∧
      ∃ other, min.outcome values.reverse = .ok other ∧ other.compare (.decimal ⟨150, 2⟩) = some .eq := by
  intro values
  have ranked : Ranked values := by
    have noDouble : ∀ value ∈ values, value.kind ≠ .double := by decide
    have numbers : ∀ value ∈ values, value ≠ .empty → value.kind.isNumeric = true := by decide
    refine ⟨⟨.int32 2, .head _, nofun⟩, noDouble, ?_⟩
    intro a left b right filled present
    apply (compare_ne_none_iff ⟨filled, noDouble a left⟩ ⟨present, noDouble b right⟩).mpr
    exact .inr ⟨numbers a left filled, numbers b right present⟩
  obtain ⟨picked, finished, leads, shuffled⟩ := outcome_extremal .min ranked
  have first : min.outcome values = .ok (.decimal ⟨150, 2⟩) := rfl
  cases finished.symm.trans first
  exact ⟨.min, ranked, first, leads, shuffled _ values.reverse_perm⟩

end AggregateFn

end ReportEngine
