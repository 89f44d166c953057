import ReportEngine.Proofs.FoldRewrites
import ReportEngine.Proofs.Subtrees

/-! Folding and evaluation. A folded tree passes the checks of the tree it came from, has its kind, and
evaluates to the same result by the same reads, unless a sum of decimals loses places to a zero that
was dropped from it. -/

namespace ReportEngine

variable {context : Context} {fields : Fields}

mutual

theorem Expr.fold_checked : ∀ expr : Expr, expr.WellBuilt → expr.fold.WellBuilt ∧ expr.fold.kind = expr.kind
  | .binary op operandKind overflow lhs rhs, built => by
    have left := lhs.fold_checked built.2.1
    have right := rhs.fold_checked built.2.2
    exact (Expr.foldBinary_rewrites built.1).checked ⟨built.1, left.1, right.1⟩
  | .unary op overflow operand, built => by
    have ⟨inner, kinded⟩ := operand.fold_checked built.2
    have supported : op.supports operand.fold.kind = true := kinded ▸ built.1
    have ⟨checked, same⟩ := (Expr.foldUnary_rewrites overflow supported).checked ⟨supported, inner⟩
    exact ⟨checked, same.trans kinded⟩
  | .logical op lhs rhs, built => by
    have left := lhs.fold_checked built.1
    have right := rhs.fold_checked built.2
    exact Expr.foldLogical_rewrites.checked ⟨left.1, right.1⟩
  | .switch condition result others, built => by
    have first := result.fold_checked built.2.1
    exact ⟨⟨(condition.fold_checked built.1).1, first.1, others.fold_checked built.2.2⟩, first.2⟩
  | .iif condition consequent alternative, built => by
    have ⟨first, kinded⟩ := consequent.fold_checked built.2.1
    have second := alternative.fold_checked built.2.2
    have ⟨checked, same⟩ :=
      (Expr.foldIif_rewrites kinded).checked ⟨(condition.fold_checked built.1).1, first, second.1⟩
    exact ⟨checked, same.trans kinded⟩
  | .convert inner kind, built => Expr.foldConvert_rewrites.checked (inner.fold_checked built).1
  | .constant _, _ | .field _, _ | .parameter _ _, _ | .aggregate _ _, _ | .global _, _ => ⟨trivial, rfl⟩

theorem Branches.fold_checked : ∀ branches : Branches, branches.WellBuilt → branches.fold.WellBuilt
  | .nil, _ => trivial
  | .cons condition result rest, built =>
    ⟨(condition.fold_checked built.1).1, (result.fold_checked built.2.1).1, rest.fold_checked built.2.2⟩

end

namespace Expr

/-- A sum that folding gives up for its left operand, although that is written with fewer places than
the zero it is added to. -/
inductive LosesScale (context : Context) (fields : Fields) : Expr → Prop where
  | sum {overflow : OverflowPolicy} {lhs rhs : Expr} {whole zero : Decimal}
      (dropped : (binary (.arithmetic .add) .decimal overflow lhs rhs).fold = lhs.fold)
      (left : lhs.value context fields = .ok (.decimal whole))
      (right : rhs.value context fields = .ok (.decimal zero)) (lower : whole.scale < zero.scale) :
      LosesScale context fields (binary (.arithmetic .add) .decimal overflow lhs rhs)

/-- Whether a node adds or subtracts decimals. -/
def IsDecimalSum : Expr → Prop
  | binary (.arithmetic op) .decimal _ _ _ => op = .add ∨ op = .sub
  | _ => False

theorem LosesScale.isDecimalSum {node : Expr} (loses : node.LosesScale context fields) : node.IsDecimalSum := by
  cases loses
  exact .inl rfl

end Expr

mutual

/-- Where no sum loses places the folded tree cannot be told from the tree by evaluating it. -/
theorem Expr.fold_eval : ∀ expr : Expr, expr.WellBuilt →
    (∀ node ∈ expr.subtrees, ¬node.LosesScale context fields) → expr.fold.eval context fields = expr.eval context fields
  | .binary op operandKind overflow lhs rhs, built, kept => by
    have ⟨own, below⟩ := List.forall_mem_cons.mp kept
    have ⟨inLeft, inRight⟩ := List.forall_mem_append.mp below
    have left := lhs.fold_eval built.2.1 inLeft
    have right := rhs.fold_eval built.2.2 inRight
    have checked : (Expr.binary op operandKind overflow lhs.fold rhs.fold).WellBuilt :=
      ⟨built.1, (lhs.fold_checked built.2.1).1, (rhs.fold_checked built.2.2).1⟩
    have folded := (Expr.foldBinary_rewrites built.1).eval checked fun isSum dropped isWhole isZero => by
      cases isSum
      rw [Expr.value, left] at isWhole
      rw [Expr.value, right] at isZero
      exact Int.not_lt.mp fun lower => own (.sum dropped isWhole isZero lower)
    refine folded.trans ?_
    rw [Expr.eval, Expr.eval, left, right]
  | .unary op overflow operand, built, kept => by
    have ⟨_, below⟩ := List.forall_mem_cons.mp kept
    have ⟨checked, kinded⟩ := operand.fold_checked built.2
    have supported : op.supports operand.fold.kind = true := kinded ▸ built.1
    refine ((Expr.foldUnary_rewrites overflow supported).eval ⟨supported, checked⟩ nofun).trans ?_
    rw [Expr.eval_unary supported, Expr.eval_unary built.1, operand.fold_eval built.2 below, kinded]
  | .logical op lhs rhs, built, kept => by
    have ⟨_, below⟩ := List.forall_mem_cons.mp kept
    have ⟨inLeft, inRight⟩ := List.forall_mem_append.mp below
    have checked : (Expr.logical op lhs.fold rhs.fold).WellBuilt :=
      ⟨(lhs.fold_checked built.1).1, (rhs.fold_checked built.2).1⟩
    refine (Expr.foldLogical_rewrites.eval checked nofun).trans ?_
    rw [Expr.eval, Expr.eval, lhs.fold_eval built.1 inLeft, rhs.fold_eval built.2 inRight]
  | .switch condition result others, built, kept => by
    have ⟨_, below⟩ := List.forall_mem_cons.mp kept
    have ⟨inCondition, below⟩ := List.forall_mem_append.mp below
    have ⟨inResult, inOthers⟩ := List.forall_mem_append.mp below
    rw [Expr.fold, Expr.eval, Expr.eval, condition.fold_eval built.1 inCondition,
      result.fold_eval built.2.1 inResult, others.fold_eval built.2.2 inOthers, (result.fold_checked built.2.1).2]
  | .iif condition consequent alternative, built, kept => by
    have ⟨_, below⟩ := List.forall_mem_cons.mp kept
    have ⟨inCondition, below⟩ := List.forall_mem_append.mp below
    have ⟨inConsequent, inAlternative⟩ := List.forall_mem_append.mp below
    have ⟨first, firstKind⟩ := consequent.fold_checked built.2.1
    have ⟨second, secondKind⟩ := alternative.fold_checked built.2.2
    refine ((Expr.foldIif_rewrites firstKind).eval ⟨(condition.fold_checked built.1).1, first, second⟩ nofun).trans ?_
    rw [Expr.eval, Expr.eval, condition.fold_eval built.1 inCondition, consequent.fold_eval built.2.1 inConsequent,
      alternative.fold_eval built.2.2 inAlternative, firstKind, secondKind]
  | .convert inner kind, built, kept => by
    have ⟨_, below⟩ := List.forall_mem_cons.mp kept
    refine (Expr.foldConvert_rewrites.eval (inner.fold_checked built).1 nofun).trans ?_
    rw [Expr.eval, Expr.eval, inner.fold_eval built below]
  | .constant _, _, _ | .field _, _, _ | .parameter _ _, _, _ | .aggregate _ _, _, _ | .global _, _, _ => rfl

theorem Branches.fold_eval : ∀ branches : Branches, branches.WellBuilt →
    (∀ node ∈ branches.subtrees, ¬node.LosesScale context fields) → ∀ kind : Kind,
    branches.fold.eval context fields kind = branches.eval context fields kind
  | .nil, _, _, _ => rfl
  | .cons condition result rest, built, kept, kind => by
    have ⟨inCondition, below⟩ := List.forall_mem_append.mp kept
    have ⟨inResult, inRest⟩ := List.forall_mem_append.mp below
    rw [Branches.fold, Branches.eval, Branches.eval, condition.fold_eval built.1 inCondition,
      result.fold_eval built.2.1 inResult, rest.fold_eval built.2.2 inRest, (result.fold_checked built.2.1).2]

end

namespace Expr

private theorem fold_eval_below {expr : Expr} (built : expr.WellBuilt)
    (kept : ∀ node ∈ expr.subtrees, ¬node.LosesScale context fields) :
    ∀ node ∈ expr.subtrees, node.fold.eval context fields = node.eval context fields := by
  intro node member
  refine node.fold_eval (expr.wellBuilt_subtrees built node member) fun inner below => ?_
  exact kept inner (expr.closed_subtrees node member below)

/-- The sums that lose places to a dropped zero are all that folding changes: without one every subtree
keeps its outcome, and one that does changes its own. -/
theorem fold_value_eq_iff (expr : Expr) (built : expr.WellBuilt) (context : Context) (fields : Fields) :
    (∀ node ∈ expr.subtrees, node.fold.value context fields = node.value context fields) ↔
      ∀ node ∈ expr.subtrees, ¬node.LosesScale context fields := by
  constructor
  · intro same node member loses
    cases loses with
    | @sum overflow lhs rhs whole zero dropped left right lower =>
      have inLeft : lhs ∈ expr.subtrees :=
        expr.closed_subtrees _ member (List.mem_cons_of_mem _ (List.mem_append_left _ lhs.self_mem_subtrees))
      have summed : (binary (.arithmetic .add) .decimal overflow lhs rhs).value context fields =
          .ok (.decimal (whole.add zero)) := value_binary rfl left right rfl rfl
      have unchanged := same _ member
      rw [dropped, same lhs inLeft, left, summed] at unchanged
      have restored : whole = whole.add zero := Value.decimal.inj (Except.ok.inj unchanged)
      have raised := Decimal.scale_le_add whole zero
      rw [← restored] at raised
      exact absurd raised (Int.not_le.mpr lower)
  · intro kept node member
    exact congrArg Traced.result (fold_eval_below built kept node member)

/-- A decimal column and a zero without decimal places. -/
def columnPlusZero : Expr :=
  binary (.arithmetic .add) .decimal .wrap (field ⟨0, "x", .decimal⟩) (constant (.decimal .zero))

theorem fold_columnPlusZero_of_places : columnPlusZero.WellBuilt ∧
    columnPlusZero.fold.value .detached (fun _ => some (.decimal ⟨15, 1⟩)) =
      columnPlusZero.value .detached (fun _ => some (.decimal ⟨15, 1⟩)) := by
  have built : columnPlusZero.WellBuilt := ⟨rfl, trivial, trivial⟩
  refine ⟨built, (fold_value_eq_iff columnPlusZero built _ _).mpr ?_ _ columnPlusZero.self_mem_subtrees⟩
  intro node member loses
  cases loses with
  | @sum overflow lhs rhs whole zero dropped left right lower =>
    simp only [columnPlusZero, subtrees, List.mem_append, List.mem_cons, List.not_mem_nil, or_false, reduceCtorEq,
      binary.injEq, true_and] at member
    obtain ⟨rfl, rfl, rfl⟩ := member
    cases left
    cases right
    exact absurd lower (by decide)

/-- A value written in hundreds of thousands is written out by the sum, but not by the folded tree. -/
theorem fold_columnPlusZero_loses_places : columnPlusZero.WellBuilt ∧
    columnPlusZero.value .detached (fun _ => some (.decimal ⟨1, -5⟩)) = .ok (.decimal ⟨100000, 0⟩) ∧
    columnPlusZero.fold.value .detached (fun _ => some (.decimal ⟨1, -5⟩)) = .ok (.decimal ⟨1, -5⟩) ∧
    columnPlusZero.fold.value .detached (fun _ => some (.decimal ⟨1, -5⟩)) ≠
      columnPlusZero.value .detached (fun _ => some (.decimal ⟨1, -5⟩)) :=
  ⟨⟨rfl, trivial, trivial⟩, rfl, rfl, nofun⟩

/-- A folded tree asks the row for the same fields in the same order, also where it fails. -/
theorem fold_reads (expr : Expr) (built : expr.WellBuilt) (noSums : ∀ node ∈ expr.subtrees, ¬node.IsDecimalSum)
    (context : Context) (fields : Fields) :
    (expr.fold.eval context fields).reads = (expr.eval context fields).reads := by
  have kept : ∀ node ∈ expr.subtrees, ¬node.LosesScale context fields :=
    fun node member loses => noSums node member loses.isDecimalSum
  exact congrArg Traced.reads (expr.fold_eval built kept)

/-- A condition that is decided up to a comparison whose first field the row does not have. -/
def missingBeforeHeld : Expr :=
  logical .and (constant (.boolean true)) <|
    binary (.comparison .lt) .int32 .wrap (field ⟨2, "missing", .int32⟩) <|
      binary (.arithmetic .sub) .int32 .wrap (field ⟨0, "held", .int32⟩) (constant (.int32 0))

theorem fold_reads_missingBeforeHeld : missingBeforeHeld.WellBuilt ∧
    (∀ node ∈ missingBeforeHeld.subtrees, ¬node.IsDecimalSum) ∧ missingBeforeHeld.fold ≠ missingBeforeHeld ∧
    (missingBeforeHeld.fold.eval .detached fun _ => none).reads =
      (missingBeforeHeld.eval .detached fun _ => none).reads := by
  have built : missingBeforeHeld.WellBuilt := ⟨trivial, rfl, trivial, rfl, trivial, trivial⟩
  have noSums : ∀ node ∈ missingBeforeHeld.subtrees, ¬node.IsDecimalSum := by
    simp [missingBeforeHeld, subtrees, IsDecimalSum]
  exact ⟨built, noSums, by decide, fold_reads missingBeforeHeld built noSums _ _⟩

end Expr

end ReportEngine
