import ReportEngine.Proofs.FoldFixedPoint
import ReportEngine.Proofs.FoldRewrites

/-! What is left of constants in a folded tree. A node over constants is there for one reason only: it
fails, and the failure is left to evaluation. A condition that is known is one that no truth can be read
from, and a known left operand is followed by a right one that still has to be evaluated or converted. -/

namespace ReportEngine.Expr

/-- Evaluation fails in every context and on every row. -/
def Fails (node : Expr) : Prop :=
  ∀ (context : Context) (fields : Fields), ∃ error, node.value context fields = .error error

/-- Holds of the nodes that folding may leave over the constants below them. -/
def IsResidual : Expr → Prop
  | binary op operandKind overflow lhs rhs =>
    (binary op operandKind overflow lhs rhs).isConstant = true → (binary op operandKind overflow lhs rhs).Fails
  | unary op overflow operand => (unary op overflow operand).isConstant = true → (unary op overflow operand).Fails
  | convert inner kind => kind ≠ .variant → (convert inner kind).isConstant = true → (convert inner kind).Fails
  | iif condition _ _ => ∀ value, condition = constant value → ∃ error, value.toBoolean = .error error
  | logical op lhs rhs => ∀ value truth, lhs = constant value → value.toBoolean = .ok truth →
      truth ≠ op.deciding ∧
        (rhs.isConstant = true ∧ (logical op lhs rhs).Fails ∨ rhs.kind ≠ .boolean ∨ rhs.mayYieldEmpty = true)
  | _ => True

/-- A constant node that is kept was evaluated, and failed. It fails the same way everywhere. -/
private theorem fails_of_kept {node : Expr} (closed : node.isConstant = true) (kept : node.foldConstant = node)
    (composed : ¬∃ value, constant value = node) : node.Fails := by
  intro context fields
  rw [value, eval_of_isConstant .detached (fun _ => none) node closed]
  unfold foldConstant at kept
  split at kept
  next reached => exact absurd ⟨_, kept⟩ composed
  next failed => exact ⟨_, failed⟩

private theorem literalTruth_constant {value : Value} {truth : Bool} (reached : value.toBoolean = .ok truth) :
    (constant value).literalTruth? = some truth := by
  rw [literalTruth?, reached]
  rfl

private theorem residual_binary {op : BinaryOp} {operandKind : Kind} {overflow : OverflowPolicy} {lhs rhs : Expr}
    (kept : foldBinary op operandKind overflow lhs rhs = binary op operandKind overflow lhs rhs) :
    (binary op operandKind overflow lhs rhs).IsResidual := by
  intro closed
  have parts : (lhs.isConstant && rhs.isConstant) = true := closed
  rw [foldBinary, if_pos parts] at kept
  exact fails_of_kept closed kept (by rintro ⟨_, ⟨⟩⟩)

private theorem residual_unary {op : UnaryOp} {overflow : OverflowPolicy} {operand : Expr}
    (kept : foldUnary op overflow operand = unary op overflow operand) : (unary op overflow operand).IsResidual := by
  intro closed
  have inner : operand.isConstant = true := closed
  rw [foldUnary, if_pos inner] at kept
  exact fails_of_kept closed kept (by rintro ⟨_, ⟨⟩⟩)

private theorem residual_convert {inner : Expr} {kind : Kind} (kept : foldConvert inner kind = convert inner kind) :
    (convert inner kind).IsResidual := by
  intro definite closed
  rw [foldConvert] at kept
  split at kept
  next dropped => exact absurd kept (ne_of_mem_children (by simp [children]))
  next =>
    have constantToDefinite : (inner.isConstant && kind != .variant) = true :=
      Bool.and_eq_true_iff.mpr ⟨closed, bne_iff_ne.mpr definite⟩
    rw [if_pos constantToDefinite] at kept
    exact fails_of_kept closed kept (by rintro ⟨_, ⟨⟩⟩)

/-- A refused condition would have left the alternative, converted where that takes a conversion. -/
private theorem foldConvert_ne_iif {condition consequent alternative : Expr} (kind : Kind) :
    foldConvert alternative kind ≠ iif condition consequent alternative := by
  intro same
  rw [foldConvert] at same
  split at same
  next => exact ne_of_mem_children (by simp [children]) same
  next =>
    split at same
    next =>
      rw [foldConstant] at same
      split at same <;> cases same
    next => cases same

private theorem residual_iif {kind : Kind} {condition consequent alternative : Expr}
    (kept : foldIif kind condition consequent alternative = iif condition consequent alternative) :
    (iif condition consequent alternative).IsResidual := by
  intro value literal
  subst literal
  cases outcome : value.toBoolean with
  | error error => exact ⟨error, rfl⟩
  | ok chosen =>
    exfalso
    rw [foldIif, literalTruth_constant outcome] at kept
    cases chosen with
    | true => exact ne_of_mem_children (by simp [children]) kept
    | false =>
      simp only at kept
      split at kept
      next => exact ne_of_mem_children (by simp [children]) kept
      next => exact foldConvert_ne_iif kind kept

private theorem residual_logical {op : LogicalOp} {lhs rhs : Expr} (kept : foldLogical op lhs rhs = logical op lhs rhs) :
    (logical op lhs rhs).IsResidual := by
  intro value truth literal reached
  subst literal
  rw [foldLogical, literalTruth_constant reached] at kept
  simp only at kept
  split at kept
  next => cases kept
  next undecided =>
    refine ⟨fun same => undecided (beq_iff_eq.mpr same), ?_⟩
    split at kept
    next closed =>
      have whole : (logical op (constant value) rhs).isConstant = true := Bool.and_eq_true_iff.mpr ⟨rfl, closed⟩
      exact .inl ⟨closed, fails_of_kept whole kept (by rintro ⟨_, ⟨⟩⟩)⟩
    next =>
      split at kept
      next => exact absurd kept (ne_of_mem_children (by simp [children]))
      next needed =>
        have notDropped : rhs.kind = .boolean → rhs.mayYieldEmpty = true := by simpa using needed
        exact .inr (Decidable.imp_iff_not_or.mp notDropped)

/-- Folding a settled node again looks at its children as they are, so the node is one that folding keeps. -/
private theorem residual_of_settled {node : Expr} (settled : node.Settled) : node.IsResidual := by
  have fixed := settled.fold_eq
  have parts : ∀ child ∈ node.children, child.fold = child := by
    intro child among
    refine settled child ?_
    rw [node.subtrees_eq]
    exact List.mem_cons_of_mem _ (List.mem_flatMap.mpr ⟨child, among, child.self_mem_subtrees⟩)
  cases node with
  | binary op operandKind overflow lhs rhs =>
    rw [fold, parts lhs (by simp [children]), parts rhs (by simp [children])] at fixed
    exact residual_binary fixed
  | unary op overflow operand =>
    rw [fold, parts operand (by simp [children])] at fixed
    exact residual_unary fixed
  | logical op lhs rhs =>
    rw [fold, parts lhs (by simp [children]), parts rhs (by simp [children])] at fixed
    exact residual_logical fixed
  | iif condition consequent alternative =>
    rw [fold, parts condition (by simp [children]), parts consequent (by simp [children]),
      parts alternative (by simp [children])] at fixed
    exact residual_iif fixed
  | convert inner kind =>
    rw [fold, parts inner (by simp [children])] at fixed
    exact residual_convert fixed
  | switch | constant | field | parameter | aggregate | «global» => trivial

/-- One pass folds all there is to fold: wherever constants are left in the result, their evaluation was
tried and failed, or they are not constants alone. -/
theorem fold_residual (expr : Expr) : ∀ node ∈ expr.fold.subtrees, node.IsResidual :=
  fun node member => residual_of_settled fun inner below =>
    expr.settled_fold inner (expr.fold.closed_subtrees node member below)

/-- A condition whose known left operand leaves a division by zero to be made. -/
def guardedDivision : Expr :=
  logical .and (constant (.boolean true)) <|
    binary (.arithmetic .div) .int32 .wrap (constant (.int32 1)) (constant (.int32 0))

theorem fold_residual_guardedDivision : guardedDivision.WellBuilt ∧
    guardedDivision ∈ guardedDivision.fold.subtrees ∧ guardedDivision.IsResidual := by
  have built : guardedDivision.WellBuilt := ⟨trivial, rfl, trivial, trivial⟩
  have unchanged : guardedDivision.fold = guardedDivision := rfl
  have member : guardedDivision ∈ guardedDivision.fold.subtrees := by
    rw [unchanged]
    exact guardedDivision.self_mem_subtrees
  exact ⟨built, member, fold_residual guardedDivision guardedDivision member⟩

end ReportEngine.Expr
