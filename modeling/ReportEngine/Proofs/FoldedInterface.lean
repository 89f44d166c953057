import ReportEngine.Proofs.FoldSoundness

/-! What a parent may know of a node without evaluating it: its kind, and whether it can come out empty.
A folded node is of the same kind, and comes out empty only where the node it replaces did. -/

namespace ReportEngine

namespace Expr

/-- Nothing is a value like any other where any kind will do, so no tree has to warn of it. -/
theorem total_of_variant : ∀ expr : Expr, expr.kind = .variant → expr.mayYieldEmpty = false
  | switch _ result _, indefinite => by
    have kinded : result.kind = .variant := indefinite
    rw [mayYieldEmpty, kinded]
    rfl
  | iif _ consequent alternative, indefinite => by
    have first := consequent.total_of_variant indefinite
    rw [mayYieldEmpty, first, Bool.false_or, Bool.and_eq_false_iff]
    by_cases same : alternative.kind = consequent.kind
    · exact .inr (alternative.total_of_variant (same.trans indefinite))
    · exact .inl (beq_false_of_ne same)
  | constant _, _ | binary .., _ | unary .., _ | logical .., _ | convert .., _ | field _, _ | parameter .., _
  | aggregate .., _ | global _, _ => rfl

/-- A conditional warns for its consequent, and for an alternative that is not converted. -/
theorem iif_total {condition consequent alternative : Expr} :
    (iif condition consequent alternative).mayYieldEmpty = false ↔
      consequent.mayYieldEmpty = false ∧
        (alternative.kind = consequent.kind → alternative.mayYieldEmpty = false) := by
  rw [mayYieldEmpty, Bool.or_eq_false_iff, Bool.and_eq_false_iff, beq_eq_false_iff_ne]
  exact and_congr_right fun _ => Decidable.imp_iff_not_or.symm

theorem Rewrites.total {node folded : Expr} (rewrites : Rewrites node folded) (total : node.mayYieldEmpty = false) :
    folded.mayYieldEmpty = false := by
  induction rewrites with
  | keep node => exact total
  | evaluate closed definite sure reached => rfl
  | dropNeutral neutral literal kinded sure => exact sure
  | decide decided => rfl
  | dropLeft reached undecided kinded sure => exact sure
  | @dropConversion inner kind kinded sure => exact sure.elim (fun any => inner.total_of_variant (kinded.trans any)) id
  | chooseConsequent chosen => exact (iif_total.mp total).1
  | chooseAlternative refused kinded => exact (iif_total.mp total).2 kinded
  | convertAlternative refused differs converted kept => exact kept rfl

end Expr

/-- By the recursion of folding: the children keep what the node was told of them, and the rewrite of the
node keeps what the node says of itself. Only conditionals pass on what their children say. -/
theorem Expr.fold_total : ∀ expr : Expr, expr.WellBuilt → expr.mayYieldEmpty = false → expr.fold.mayYieldEmpty = false
  | .binary op operandKind overflow lhs rhs, built, _ => (Expr.foldBinary_rewrites built.1).total rfl
  | .unary op overflow operand, built, _ => by
    have supported : op.supports operand.fold.kind = true := (operand.fold_checked built.2).2 ▸ built.1
    exact (Expr.foldUnary_rewrites overflow supported).total rfl
  | .logical op lhs rhs, _, _ => Expr.foldLogical_rewrites.total rfl
  | .switch condition result others, built, total => by
    rw [Expr.fold, Expr.mayYieldEmpty, (result.fold_checked built.2.1).2]
    exact total
  | .iif condition consequent alternative, built, total => by
    obtain ⟨first, second⟩ := Expr.iif_total.mp total
    have kinded := (consequent.fold_checked built.2.1).2
    have otherKinded := (alternative.fold_checked built.2.2).2
    have children : (Expr.iif condition.fold consequent.fold alternative.fold).mayYieldEmpty = false := by
      refine Expr.iif_total.mpr ⟨consequent.fold_total built.2.1 first, fun same => ?_⟩
      rw [kinded, otherKinded] at same
      exact alternative.fold_total built.2.2 (second same)
    exact (Expr.foldIif_rewrites kinded).total children
  | .convert inner kind, _, _ => Expr.foldConvert_rewrites.total rfl
  | .constant _, _, total | .field _, _, total | .parameter _ _, _, total | .aggregate _ _, _, total
  | .global _, _, total => total

namespace Expr

/-- What a parent was told of a tree when it was built still holds of the folded tree. -/
theorem fold_interface (expr : Expr) (built : expr.WellBuilt) :
    expr.fold.kind = expr.kind ∧ (expr.mayYieldEmpty = false → expr.fold.mayYieldEmpty = false) :=
  ⟨(expr.fold_checked built).2, expr.fold_total built⟩

/-- Refuses an integer column for a switch over texts, which then has to be converted. -/
def refusedColumn : Expr :=
  iif (constant (.boolean false)) (field ⟨0, "x", .int32⟩)
    (switch (field ⟨1, "y", .boolean⟩) (constant (.string "7")) .nil)

theorem fold_interface_refusedColumn : refusedColumn.WellBuilt ∧ refusedColumn.mayYieldEmpty = false ∧
    refusedColumn.fold ≠ refusedColumn ∧ refusedColumn.fold.kind = .int32 ∧
    refusedColumn.fold.mayYieldEmpty = false := by
  have built : refusedColumn.WellBuilt := ⟨trivial, trivial, trivial, trivial, trivial⟩
  have ⟨kinded, total⟩ := fold_interface refusedColumn built
  exact ⟨built, rfl, by decide, kinded, total rfl⟩

end Expr

end ReportEngine
