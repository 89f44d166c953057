import ReportEngine.Proofs.FoldSoundness

/-! The errors that evaluation can end in once the checks have passed. No operator meets operands that
it is not defined over, and an overflow is reported only where a node asks for it or where a page
number does not fit. -/

namespace ReportEngine

variable {context : Context} {fields : Fields} {error : ExprError}

namespace Expr

/-- A node that may report an overflow, under the name it does so. -/
inductive Traps (context : Context) : Expr → String → Prop where
  | arithmetic {op : Arithmetic} {lhs rhs : Expr} :
      Traps context (binary (.arithmetic op) .int32 .trap lhs rhs) op.name
  | negation {operand : Expr} (kinded : operand.kind = .int32) :
      Traps context (unary .negate .trap operand) UnaryOp.negate.name
  | pageNumber (beyond : 0x7FFFFFFF < context.pageNumber) :
      Traps context (global .pageNumber) Global.pageNumber.name
  | totalPages (beyond : 0x7FFFFFFF < context.totalPages) :
      Traps context (global .totalPages) Global.totalPages.name

theorem Traps.of_operands {op : BinaryOp} {operandKind : Kind} {overflow : OverflowPolicy}
    {lhs rhs left right : Expr} {label : String}
    (traps : Traps context (binary op operandKind overflow lhs rhs) label) :
    Traps context (binary op operandKind overflow left right) label := by
  cases traps
  exact .arithmetic

theorem Traps.of_operand {op : UnaryOp} {overflow : OverflowPolicy} {operand inner : Expr} {label : String}
    (traps : Traps context (unary op overflow operand) label) (kinded : operand.kind = inner.kind) :
    Traps context (unary op overflow inner) label := by
  cases traps with
  | negation isInt32 => exact .negation (kinded ▸ isInt32)

end Expr

/-- Some node of a list may report an overflow. -/
def Trapping (context : Context) (nodes : List Expr) (label : String) : Prop :=
  ∃ node ∈ nodes, node.Traps context label

/-- The errors that remain possible, an overflow only of a node among those given. -/
inductive ExprError.Foreseen (context : Context) (nodes : List Expr) : ExprError → Prop where
  | conversion (text : String) (source target : Kind) : Foreseen context nodes (.conversion (some text) source target)
  /-- The text of the decimal could not be written, and the program stops. -/
  | stopped : Foreseen context nodes (.conversion none .decimal .int32)
  | divideByZero (op : String) (kind : Kind) : Foreseen context nodes (.divideByZero op kind)
  | unboundReference (name : String) : Foreseen context nodes (.unboundReference name)
  | overflow {label : String} (trapping : Trapping context nodes label) :
      Foreseen context nodes (.overflow label .int32)

namespace ExprError.Foreseen

variable {nodes others : List Expr}

theorem mono (foreseen : error.Foreseen context nodes)
    (kept : ∀ label, Trapping context nodes label → Trapping context others label) :
    error.Foreseen context others := by
  cases foreseen with
  | conversion text source target => exact .conversion text source target
  | stopped => exact .stopped
  | divideByZero op kind => exact .divideByZero op kind
  | unboundReference name => exact .unboundReference name
  | overflow trapping => exact .overflow (kept _ trapping)

theorem left (foreseen : error.Foreseen context nodes) : error.Foreseen context (nodes ++ others) :=
  foreseen.mono fun _ ⟨node, member, traps⟩ => ⟨node, List.mem_append_left _ member, traps⟩

theorem right (foreseen : error.Foreseen context nodes) : error.Foreseen context (others ++ nodes) :=
  foreseen.mono fun _ ⟨node, member, traps⟩ => ⟨node, List.mem_append_right _ member, traps⟩

theorem below {root : Expr} (foreseen : error.Foreseen context nodes) : error.Foreseen context (root :: nodes) :=
  foreseen.mono fun _ ⟨node, member, traps⟩ => ⟨node, List.mem_cons_of_mem _ member, traps⟩

theorem of_convert {value : Value} {kind : Kind} (failed : value.convert kind = .error error) :
    error.Foreseen context nodes := by
  obtain ⟨text, rfl, unwritten⟩ := Value.convert_error failed
  cases text with
  | some text => exact .conversion text _ _
  | none =>
    obtain ⟨source, target⟩ := unwritten rfl
    rw [source, target]
    exact .stopped

theorem of_toBoolean {value : Value} (failed : value.toBoolean = .error error) : error.Foreseen context nodes := by
  obtain ⟨text, rfl⟩ := Value.toBoolean_error failed
  exact .conversion text _ _

theorem of_resolve {bound : Option Value} {kind : Kind} {label : String}
    (failed : resolve bound kind label = .error error) : error.Foreseen context nodes := by
  cases bound with
  | none =>
    cases failed
    exact .unboundReference label
  | some value => exact of_convert failed

/-- Seeing a value as one of another kind adds no errors but those of the conversion. -/
theorem of_converted {traced : Traced Value} {kind : Kind} (failed : (traced.convert kind).result = .error error)
    (inner : traced.result = .error error → error.Foreseen context nodes) : error.Foreseen context nodes := by
  rcases Traced.convert_eq_error failed with failed | ⟨value, _, failed⟩
  · exact inner failed
  · exact of_convert failed

theorem of_truth {traced : Traced Value} (failed : traced.truth.result = .error error)
    (inner : traced.result = .error error → error.Foreseen context nodes) : error.Foreseen context nodes := by
  rcases Traced.truth_eq_error failed with failed | ⟨value, _, failed⟩
  · exact inner failed
  · exact of_toBoolean failed

end ExprError.Foreseen

namespace Expr

open ExprError.Foreseen

private theorem page_error {which : Global} {count : Nat} (failed : which.page count = .error error) :
    0x7FFFFFFF < count ∧ error = .overflow which.name .int32 := by
  rw [Global.page] at failed
  split at failed
  next => cases failed
  next beyond =>
    cases failed
    exact ⟨by omega, rfl⟩

private theorem global_foreseen {which : Global} (failed : which.eval context = .error error) :
    error.Foreseen context [global which] := by
  cases which with
  | pageNumber =>
    obtain ⟨beyond, rfl⟩ := page_error failed
    exact .overflow ⟨_, List.mem_cons_self, .pageNumber beyond⟩
  | totalPages =>
    obtain ⟨beyond, rfl⟩ := page_error failed
    exact .overflow ⟨_, List.mem_cons_self, .totalPages beyond⟩
  | executionTime | reportName => cases failed

private theorem applied_foreseen {op : BinaryOp} {operandKind : Kind} {overflow : OverflowPolicy} {lhs rhs : Expr}
    {left right : Value} (supported : op.supports operandKind = true) (leftKind : left.kind = operandKind)
    (rightKind : right.kind = operandKind) (failed : op.apply overflow left right = .error error) :
    error.Foreseen context (binary op operandKind overflow lhs rhs).subtrees := by
  subst leftKind
  rcases BinaryOp.apply_error supported rightKind failed with rfl | ⟨isInt32, rfl, rfl⟩
  · exact .divideByZero _ _
  · cases op with
    | arithmetic op =>
      rw [isInt32]
      exact .overflow ⟨_, self_mem_subtrees _, .arithmetic⟩
    | comparison test => cases failed

end Expr

section Evaluated

open ExprError.Foreseen

mutual

theorem Expr.value_error : ∀ expr : Expr, expr.WellBuilt → expr.value context fields = .error error →
    error.Foreseen context expr.subtrees
  | .constant _, _, failed => by cases failed
  | .binary op operandKind _ lhs rhs, built, failed => by
    have definite := BinaryOp.supports_definite built.1
    rw [Expr.value, Expr.eval_binary built.1] at failed
    rcases Traced.bind_eq_error failed with failed | ⟨left, leftReached, failed⟩
    · exact of_converted failed fun failed => (lhs.value_error built.2.1 failed).left.below
    rcases Traced.bind_eq_error failed with failed | ⟨right, rightReached, failed⟩
    · exact of_converted failed fun failed => (rhs.value_error built.2.2 failed).right.below
    obtain ⟨_, _, leftConverted⟩ := Traced.convert_eq_ok leftReached
    obtain ⟨_, _, rightConverted⟩ := Traced.convert_eq_ok rightReached
    have leftKind := Value.kind_of_convert_definite definite leftConverted
    have rightKind := Value.kind_of_convert_definite definite rightConverted
    exact Expr.applied_foreseen built.1 leftKind rightKind failed
  | .unary op _ operand, built, failed => by
    rw [Expr.value, Expr.eval_unary built.1] at failed
    rcases Traced.bind_eq_error failed with failed | ⟨inner, reached, failed⟩
    · exact of_converted failed fun failed => (operand.value_error built.2 failed).below
    obtain ⟨_, _, converted⟩ := Traced.convert_eq_ok reached
    have kinded := Value.kind_of_convert_definite (UnaryOp.supports_definite built.1) converted
    obtain ⟨rfl, isInt32, rfl, rfl⟩ := UnaryOp.apply_error (kinded ▸ built.1) failed
    exact .overflow ⟨_, Expr.self_mem_subtrees _, .negation (kinded.symm.trans isInt32)⟩
  | .logical op lhs rhs, built, failed => by
    rcases Traced.bind_eq_error failed with failed | ⟨left, _, failed⟩
    · exact of_truth failed fun failed => (lhs.value_error built.1 failed).left.below
    split at failed
    · cases failed
    rcases Traced.bind_eq_error failed with failed | ⟨right, _, failed⟩
    · exact of_truth failed fun failed => (rhs.value_error built.2 failed).right.below
    · cases failed
  | .switch condition result others, built, failed => by
    rcases Traced.bind_eq_error failed with failed | ⟨matched, _, failed⟩
    · exact of_truth failed fun failed => (condition.value_error built.1 failed).left.below
    split at failed
    · exact (result.value_error built.2.1 failed).left.right.below
    · exact (others.value_error built.2.2 failed).right.right.below
  | .iif condition consequent alternative, built, failed => by
    rcases Traced.bind_eq_error failed with failed | ⟨chosen, _, failed⟩
    · exact of_truth failed fun failed => (condition.value_error built.1 failed).left.below
    split at failed
    · exact (consequent.value_error built.2.1 failed).left.right.below
    split at failed
    · exact (alternative.value_error built.2.2 failed).right.right.below
    · exact of_converted failed fun failed => (alternative.value_error built.2.2 failed).right.right.below
  | .convert inner kind, built, failed =>
    of_converted failed fun failed => (inner.value_error built failed).below
  | .field _, _, failed | .parameter _ _, _, failed | .aggregate _ _, _, failed => of_resolve failed
  | .global _, _, failed => Expr.global_foreseen failed

theorem Branches.value_error : ∀ (branches : Branches) {kind : Kind}, branches.WellBuilt →
    (branches.eval context fields kind).result = .error error → error.Foreseen context branches.subtrees
  | .nil, _, _, failed => by cases failed
  | .cons condition result rest, kind, built, failed => by
    rcases Traced.bind_eq_error failed with failed | ⟨matched, _, failed⟩
    · exact of_truth failed fun failed => (condition.value_error built.1 failed).left
    split at failed
    · split at failed
      · exact (result.value_error built.2.1 failed).left.right
      · exact of_converted failed fun failed => (result.value_error built.2.1 failed).left.right
    · exact (rest.value_error built.2.2 failed).right.right

end

end Evaluated

section Folded

variable {label : String}

@[simp] private theorem trapping_cons {root : Expr} {nodes : List Expr} :
    Trapping context (root :: nodes) label ↔ root.Traps context label ∨ Trapping context nodes label := by
  simp only [Trapping, List.mem_cons, exists_eq_or_imp]

@[simp] private theorem trapping_append {nodes others : List Expr} :
    Trapping context (nodes ++ others) label ↔ Trapping context nodes label ∨ Trapping context others label := by
  simp only [Trapping, List.mem_append, or_and_right, exists_or]

private theorem not_trapping_constant {value : Value} : ¬Trapping context (Expr.constant value).subtrees label := by
  rintro ⟨node, member, traps⟩
  cases List.mem_singleton.mp member
  cases traps

/-- A rewrite brings in nothing that overflows. -/
theorem Expr.Rewrites.trapping {node folded : Expr} (rewrites : Rewrites node folded)
    (trapping : Trapping context folded.subtrees label) : Trapping context node.subtrees label := by
  induction rewrites with
  | keep node => exact trapping
  | evaluate | decide => exact absurd trapping not_trapping_constant
  | dropNeutral => exact trapping_cons.mpr (.inr (trapping_append.mpr (.inl trapping)))
  | dropLeft => exact trapping_cons.mpr (.inr (trapping_append.mpr (.inr trapping)))
  | dropConversion => exact trapping_cons.mpr (.inr trapping)
  | chooseConsequent =>
    exact trapping_cons.mpr (.inr (trapping_append.mpr (.inr (trapping_append.mpr (.inl trapping)))))
  | chooseAlternative =>
    exact trapping_cons.mpr (.inr (trapping_append.mpr (.inr (trapping_append.mpr (.inr trapping)))))
  | convertAlternative _ _ _ kept =>
    rcases trapping_cons.mp (kept trapping) with traps | trapping
    · cases traps
    · exact trapping_cons.mpr (.inr (trapping_append.mpr (.inr (trapping_append.mpr (.inr trapping)))))

mutual

/-- What overflows in a folded tree was in the tree before. -/
theorem Expr.fold_trapping : ∀ expr : Expr, expr.WellBuilt → Trapping context expr.fold.subtrees label →
    Trapping context expr.subtrees label
  | .binary op operandKind overflow lhs rhs, built, trapping => by
    rcases trapping_cons.mp ((Expr.foldBinary_rewrites built.1).trapping trapping) with traps | below
    · exact trapping_cons.mpr (.inl traps.of_operands)
    · exact trapping_cons.mpr (.inr (trapping_append.mpr
        ((trapping_append.mp below).imp (lhs.fold_trapping built.2.1) (rhs.fold_trapping built.2.2))))
  | .unary op overflow operand, built, trapping => by
    have kinded := (operand.fold_checked built.2).2
    have supported : op.supports operand.fold.kind = true := kinded ▸ built.1
    rcases trapping_cons.mp ((Expr.foldUnary_rewrites overflow supported).trapping trapping) with traps | below
    · exact trapping_cons.mpr (.inl (traps.of_operand kinded))
    · exact trapping_cons.mpr (.inr (operand.fold_trapping built.2 below))
  | .logical op lhs rhs, built, trapping => by
    rcases trapping_cons.mp (Expr.foldLogical_rewrites.trapping trapping) with traps | below
    · cases traps
    · exact trapping_cons.mpr (.inr (trapping_append.mpr
        ((trapping_append.mp below).imp (lhs.fold_trapping built.1) (rhs.fold_trapping built.2))))
  | .switch condition result others, built, trapping => by
    rcases trapping_cons.mp trapping with traps | below
    · cases traps
    refine trapping_cons.mpr (.inr (trapping_append.mpr ?_))
    refine (trapping_append.mp below).imp (condition.fold_trapping built.1) fun below => trapping_append.mpr ?_
    exact (trapping_append.mp below).imp (result.fold_trapping built.2.1) (others.fold_trapping built.2.2)
  | .iif condition consequent alternative, built, trapping => by
    have kinded := (consequent.fold_checked built.2.1).2
    rcases trapping_cons.mp ((Expr.foldIif_rewrites kinded).trapping trapping) with traps | below
    · cases traps
    refine trapping_cons.mpr (.inr (trapping_append.mpr ?_))
    refine (trapping_append.mp below).imp (condition.fold_trapping built.1) fun below => trapping_append.mpr ?_
    exact (trapping_append.mp below).imp (consequent.fold_trapping built.2.1) (alternative.fold_trapping built.2.2)
  | .convert inner kind, built, trapping => by
    rcases trapping_cons.mp (Expr.foldConvert_rewrites.trapping trapping) with traps | below
    · cases traps
    · exact trapping_cons.mpr (.inr (inner.fold_trapping built below))
  | .constant _, _, trapping | .field _, _, trapping | .parameter _ _, _, trapping | .aggregate _ _, _, trapping
  | .global _, _, trapping => trapping

theorem Branches.fold_trapping : ∀ branches : Branches, branches.WellBuilt →
    Trapping context branches.fold.subtrees label → Trapping context branches.subtrees label
  | .nil, _, trapping => trapping
  | .cons condition result rest, built, trapping => by
    refine trapping_append.mpr ?_
    refine (trapping_append.mp trapping).imp (condition.fold_trapping built.1) fun below => trapping_append.mpr ?_
    exact (trapping_append.mp below).imp (result.fold_trapping built.2.1) (rest.fold_trapping built.2.2)

end

end Folded

namespace Expr

/-- Neither a well-built tree nor what folding makes of it goes wrong in any other way than its values,
its row and its context can make it. -/
theorem error_foreseen (expr : Expr) (built : expr.WellBuilt) (context : Context) (fields : Fields) (error : ExprError)
    (failed : expr.value context fields = .error error ∨ expr.fold.value context fields = .error error) :
    error.Foreseen context expr.subtrees := by
  rcases failed with failed | failed
  · exact expr.value_error built failed
  · have foreseen := expr.fold.value_error (expr.fold_checked built).1 failed
    exact foreseen.mono fun label => expr.fold_trapping built

/-- The lowest integer has no negation. -/
def lowestNegated : Expr := unary .negate .trap (constant (.int32 Int32.minValue))

theorem lowestNegated_foreseen : lowestNegated.WellBuilt ∧
    lowestNegated.fold.value .detached (fun _ => none) = .error (.overflow "neg" .int32) ∧
    (ExprError.overflow "neg" .int32).Foreseen .detached lowestNegated.subtrees := by
  have built : lowestNegated.WellBuilt := ⟨rfl, trivial⟩
  have failed : lowestNegated.fold.value .detached (fun _ => none) = .error (.overflow "neg" .int32) := rfl
  exact ⟨built, failed, lowestNegated.error_foreseen built _ _ _ (.inr failed)⟩

end Expr

end ReportEngine
