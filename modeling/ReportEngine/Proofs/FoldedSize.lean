import Mathlib.Algebra.Ring.Nat
import ReportEngine.Proofs.FoldFixedPoint
import ReportEngine.Report.Definition

/-! Folding never makes a tree larger, so the nodes that a job reports as removed are those that are gone. -/

namespace ReportEngine

namespace Expr

theorem nodeCount_pos (expr : Expr) : 0 < expr.nodeCount := by
  cases expr <;> rw [nodeCount] <;> omega

theorem Outcome.nodeCount_le {node folded : Expr} (outcome : Outcome node folded) :
    folded.nodeCount ≤ node.nodeCount := by
  cases outcome with
  | kept => exact Nat.le_refl _
  | child member => exact Nat.le_of_lt (nodeCount_lt_of_mem_children member)
  | literal value => exact node.nodeCount_pos

/-- The conversion that a refused condition leaves takes the place of the conditional and of its condition. -/
theorem nodeCount_foldIif_le (kind : Kind) (condition consequent alternative : Expr) :
    (foldIif kind condition consequent alternative).nodeCount ≤
      (iif condition consequent alternative).nodeCount := by
  have test := condition.nodeCount_pos
  rw [foldIif]
  split
  next => exact Nat.le_refl _
  next => simp only [nodeCount]; omega
  next =>
    have converted := (foldConvert_outcome alternative kind).nodeCount_le
    simp only [nodeCount] at converted ⊢
    split <;> omega

end Expr

mutual

/-- By the recursion of folding: the children do not grow, and neither does the node over them. -/
theorem Expr.nodeCount_fold_le : ∀ expr : Expr, expr.fold.nodeCount ≤ expr.nodeCount
  | .binary op operandKind overflow lhs rhs => by
    have left := lhs.nodeCount_fold_le
    have right := rhs.nodeCount_fold_le
    have node := (Expr.foldBinary_outcome op operandKind overflow lhs.fold rhs.fold).nodeCount_le
    rw [Expr.nodeCount] at node
    rw [Expr.fold, Expr.nodeCount]
    omega
  | .unary op overflow operand => by
    have inner := operand.nodeCount_fold_le
    have node := (Expr.foldUnary_outcome op overflow operand.fold).nodeCount_le
    rw [Expr.nodeCount] at node
    rw [Expr.fold, Expr.nodeCount]
    omega
  | .logical op lhs rhs => by
    have left := lhs.nodeCount_fold_le
    have right := rhs.nodeCount_fold_le
    have node := (Expr.foldLogical_outcome op lhs.fold rhs.fold).nodeCount_le
    rw [Expr.nodeCount] at node
    rw [Expr.fold, Expr.nodeCount]
    omega
  | .switch condition result others => by
    have test := condition.nodeCount_fold_le
    have first := result.nodeCount_fold_le
    have further := others.nodeCount_fold_le
    rw [Expr.fold, Expr.nodeCount, Expr.nodeCount]
    omega
  | .iif condition consequent alternative => by
    have test := condition.nodeCount_fold_le
    have first := consequent.nodeCount_fold_le
    have second := alternative.nodeCount_fold_le
    have node := Expr.nodeCount_foldIif_le consequent.kind condition.fold consequent.fold alternative.fold
    rw [Expr.nodeCount] at node
    rw [Expr.fold, Expr.nodeCount]
    omega
  | .convert inner kind => by
    have below := inner.nodeCount_fold_le
    have node := (Expr.foldConvert_outcome inner.fold kind).nodeCount_le
    rw [Expr.nodeCount] at node
    rw [Expr.fold, Expr.nodeCount]
    omega
  | .constant _ | .field _ | .parameter _ _ | .aggregate _ _ | .global _ => Nat.le_refl _

theorem Branches.nodeCount_fold_le : ∀ branches : Branches, branches.fold.nodeCount ≤ branches.nodeCount
  | .nil => Nat.le_refl _
  | .cons condition result rest => by
    have test := condition.nodeCount_fold_le
    have first := result.nodeCount_fold_le
    have further := rest.nodeCount_fold_le
    rw [Branches.fold, Branches.nodeCount, Branches.nodeCount]
    omega

end

theorem Expr.sum_nodeCount_fold_le (trees : List Expr) :
    (trees.map fun expr => expr.fold.nodeCount).sum ≤ (trees.map nodeCount).sum := by
  induction trees with
  | nil => exact Nat.le_refl _
  | cons expr rest ih =>
    rw [List.map_cons, List.map_cons, List.sum_cons, List.sum_cons]
    exact Nat.add_le_add expr.nodeCount_fold_le ih

namespace FoldStats

/-- What is removed is a difference that never has to stop at zero. -/
theorem removed_add_after {stats : FoldStats} (shrunk : stats.after ≤ stats.before) :
    stats.removed + stats.after = stats.before := Nat.sub_add_cancel shrunk

theorem foldl_add_ofExpr (trees : List Expr) (stats : FoldStats) :
    trees.foldl (fun stats expr => stats.add (.ofExpr expr)) stats =
      ⟨stats.before + (trees.map Expr.nodeCount).sum,
        stats.after + (trees.map fun expr => expr.fold.nodeCount).sum⟩ := by
  induction trees generalizing stats with
  | nil => rfl
  | cons expr rest ih =>
    rw [List.foldl_cons, ih, List.map_cons, List.map_cons, List.sum_cons, List.sum_cons, ← Nat.add_assoc,
      ← Nat.add_assoc]
    rfl

end FoldStats

/-- The nodes of all trees of cells, aggregates and item properties. -/
def treeNodes (cells : List CellDef) (aggregates : List AggregateDef) (items : List ItemDef) : Nat :=
  (cells.map fun cell => cell.expr.nodeCount).sum +
    (aggregates.map fun aggregate => aggregate.expr.nodeCount).sum +
    (items.map fun item => (item.properties.map fun property => property.2.nodeCount).sum).sum

namespace ReportDefinition

/-- Whatever is counted in a tree is counted in cells, aggregates and item properties apart. -/
theorem sum_trees (definition : ReportDefinition) (count : Expr → Nat) :
    (definition.trees.map count).sum =
      (definition.cells.map fun cell => count cell.expr).sum +
        (definition.aggregates.map fun aggregate => count aggregate.expr).sum +
        (definition.items.map fun item => (item.properties.map fun property => count property.2).sum).sum := by
  have properties : ∀ items : List ItemDef,
      ((items.flatMap fun item => item.properties.map Prod.snd).map count).sum =
        (items.map fun item => (item.properties.map fun property => count property.2).sum).sum := by
    intro items
    induction items with
    | nil => rfl
    | cons item rest ih =>
      rw [List.flatMap_cons, List.map_append, List.sum_append, ih, List.map_cons, List.sum_cons, List.map_map]
      rfl
  rw [trees, List.map_append, List.map_append, List.sum_append, List.sum_append, properties, List.map_map,
    List.map_map]
  rfl

end ReportDefinition

namespace Job

theorem treeNodes_prepare (definition : ReportDefinition) (settings : RenderSettings) :
    treeNodes (prepare definition settings).cells (prepare definition settings).aggregates
        (prepare definition settings).items = (definition.trees.map fun expr => expr.fold.nodeCount).sum := by
  rw [definition.sum_trees, treeNodes]
  simp only [prepare, List.map_map, Function.comp_def, CellDef.fold, AggregateDef.fold, ItemDef.fold]

/-- No tree grows, and the statistics of a prepared job count the nodes of its definition and its own. -/
theorem fold_stats_exact :
    (∀ expr : Expr, expr.fold.nodeCount ≤ expr.nodeCount ∧
      (FoldStats.ofExpr expr).removed + expr.fold.nodeCount = expr.nodeCount) ∧
    ∀ (definition : ReportDefinition) (settings : RenderSettings),
      let job := prepare definition settings
      job.stats.before = treeNodes definition.cells definition.aggregates definition.items ∧
      job.stats.after = treeNodes job.cells job.aggregates job.items ∧
      job.stats.removed + job.stats.after = job.stats.before := by
  refine ⟨fun expr => ?_, fun definition settings => ?_⟩
  · exact ⟨expr.nodeCount_fold_le, FoldStats.removed_add_after expr.nodeCount_fold_le⟩
  · have stats : (prepare definition settings).stats =
        ⟨0 + (definition.trees.map Expr.nodeCount).sum,
          0 + (definition.trees.map fun expr => expr.fold.nodeCount).sum⟩ :=
      FoldStats.foldl_add_ofExpr definition.trees .zero
    rw [Nat.zero_add, Nat.zero_add] at stats
    refine ⟨?_, ?_, ?_⟩
    · rw [stats, definition.sum_trees]
      rfl
    · rw [stats, treeNodes_prepare]
    · exact FoldStats.removed_add_after (by rw [stats]; exact Expr.sum_nodeCount_fold_le definition.trees)

end Job

end ReportEngine
