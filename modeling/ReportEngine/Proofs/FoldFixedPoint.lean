import ReportEngine.Expr.Fold
import ReportEngine.Proofs.Subtrees

/-! One pass of folding is enough. What becomes of a node depends on its folded children alone, so a
node that is kept would be kept again, and no tree below it is left to fold. -/

namespace ReportEngine

namespace Expr

/-- Folding changes no node of the tree. -/
def Settled (expr : Expr) : Prop := ∀ node ∈ expr.subtrees, node.fold = node

theorem Settled.fold_eq {expr : Expr} (settled : expr.Settled) : expr.fold = expr :=
  settled expr expr.self_mem_subtrees

private theorem settled_node {node : Expr} (fixed : node.fold = node) (parts : ∀ child ∈ node.children, child.Settled) :
    node.Settled := by
  intro inner member
  rw [node.subtrees_eq] at member
  rcases List.mem_cons.mp member with rfl | below
  · exact fixed
  · obtain ⟨child, among, inside⟩ := List.mem_flatMap.mp below
    exact parts child among inner inside

private theorem settled_constant (value : Value) : (constant value).Settled := settled_node rfl nofun

/-- What a node with folded children may turn into. -/
inductive Outcome (node : Expr) : Expr → Prop where
  | kept : Outcome node node
  | child {child : Expr} (member : child ∈ node.children) : Outcome node child
  | literal (value : Value) : Outcome node (constant value)

/-- Only a node that is kept could be folded further, and folding it looks at the same children again. -/
private theorem Outcome.settled {node folded : Expr} (outcome : Outcome node folded)
    (again : folded = node → node.fold = node) (parts : ∀ child ∈ node.children, child.Settled) : folded.Settled := by
  cases outcome with
  | kept => exact settled_node (again rfl) parts
  | child member => exact parts _ member
  | literal value => exact settled_constant value

theorem foldConstant_outcome (node : Expr) : Outcome node node.foldConstant := by
  unfold foldConstant
  split
  · exact .literal _
  · exact .kept

theorem foldBinary_outcome (op : BinaryOp) (operandKind : Kind) (overflow : OverflowPolicy) (lhs rhs : Expr) :
    Outcome (binary op operandKind overflow lhs rhs) (foldBinary op operandKind overflow lhs rhs) := by
  simp only [foldBinary]
  split
  · exact foldConstant_outcome _
  · split
    · exact .child List.mem_cons_self
    · exact .kept

theorem foldUnary_outcome (op : UnaryOp) (overflow : OverflowPolicy) (operand : Expr) :
    Outcome (unary op overflow operand) (foldUnary op overflow operand) := by
  simp only [foldUnary]
  split
  · exact foldConstant_outcome _
  · exact .kept

theorem foldLogical_outcome (op : LogicalOp) (lhs rhs : Expr) :
    Outcome (logical op lhs rhs) (foldLogical op lhs rhs) := by
  cases known : lhs.literalTruth? with
  | none =>
    simp only [foldLogical, known]
    exact .kept
  | some left =>
    simp only [foldLogical, known]
    split
    · exact .literal _
    · split
      · exact foldConstant_outcome _
      · split
        · exact .child (List.mem_cons_of_mem _ List.mem_cons_self)
        · exact .kept

theorem foldConvert_outcome (inner : Expr) (kind : Kind) : Outcome (convert inner kind) (foldConvert inner kind) := by
  simp only [foldConvert]
  split
  · exact .child List.mem_cons_self
  · split
    · exact foldConstant_outcome _
    · exact .kept

private theorem settled_foldConvert {inner : Expr} (settled : inner.Settled) (kind : Kind) :
    (foldConvert inner kind).Settled := by
  refine (foldConvert_outcome inner kind).settled (fun kept => ?_) (List.forall_mem_singleton.mpr settled)
  rw [fold, settled.fold_eq, kept]

/-- A refused condition is the one case where a new node comes up: the conversion of the alternative. It
is folded there and then. -/
private theorem settled_foldIif {condition consequent alternative : Expr} (kind : Kind) (test : condition.Settled)
    (first : consequent.Settled) (second : alternative.Settled) :
    (foldIif kind condition consequent alternative).Settled := by
  cases known : condition.literalTruth? with
  | none =>
    simp only [foldIif, known]
    refine settled_node ?_ (List.forall_mem_cons.mpr ⟨test, List.forall_mem_cons.mpr
      ⟨first, List.forall_mem_singleton.mpr second⟩⟩)
    rw [fold, test.fold_eq, first.fold_eq, second.fold_eq, foldIif, known]
  | some chosen =>
    cases chosen with
    | true =>
      simp only [foldIif, known]
      exact first
    | false =>
      simp only [foldIif, known]
      split
      · exact second
      · exact settled_foldConvert second kind

end Expr

mutual

theorem Expr.settled_fold : ∀ expr : Expr, expr.fold.Settled
  | .binary op operandKind overflow lhs rhs => by
    have left := lhs.settled_fold
    have right := rhs.settled_fold
    refine (Expr.foldBinary_outcome op operandKind overflow lhs.fold rhs.fold).settled (fun kept => ?_)
      (List.forall_mem_cons.mpr ⟨left, List.forall_mem_singleton.mpr right⟩)
    rw [Expr.fold, left.fold_eq, right.fold_eq, kept]
  | .unary op overflow operand => by
    have inner := operand.settled_fold
    refine (Expr.foldUnary_outcome op overflow operand.fold).settled (fun kept => ?_)
      (List.forall_mem_singleton.mpr inner)
    rw [Expr.fold, inner.fold_eq, kept]
  | .logical op lhs rhs => by
    have left := lhs.settled_fold
    have right := rhs.settled_fold
    refine (Expr.foldLogical_outcome op lhs.fold rhs.fold).settled (fun kept => ?_)
      (List.forall_mem_cons.mpr ⟨left, List.forall_mem_singleton.mpr right⟩)
    rw [Expr.fold, left.fold_eq, right.fold_eq, kept]
  | .switch condition result others => by
    have ⟨again, further⟩ := others.settled_fold
    refine Expr.settled_node ?_ (List.forall_mem_cons.mpr ⟨condition.settled_fold, List.forall_mem_cons.mpr
      ⟨result.settled_fold, further⟩⟩)
    rw [Expr.fold, Expr.fold, condition.settled_fold.fold_eq, result.settled_fold.fold_eq, again]
  | .iif condition consequent alternative =>
    Expr.settled_foldIif consequent.kind condition.settled_fold consequent.settled_fold alternative.settled_fold
  | .convert inner kind => Expr.settled_foldConvert inner.settled_fold kind
  | .constant _ | .field _ | .parameter _ _ | .aggregate _ _ | .global _ => Expr.settled_node rfl nofun

theorem Branches.settled_fold : ∀ branches : Branches,
    branches.fold.fold = branches.fold ∧ ∀ child ∈ branches.fold.children, child.Settled
  | .nil => ⟨rfl, nofun⟩
  | .cons condition result rest => by
    have ⟨again, further⟩ := rest.settled_fold
    refine ⟨?_, List.forall_mem_cons.mpr ⟨condition.settled_fold, List.forall_mem_cons.mpr
      ⟨result.settled_fold, further⟩⟩⟩
    rw [Branches.fold, Branches.fold, condition.settled_fold.fold_eq, result.settled_fold.fold_eq, again]

end

namespace Expr

theorem fold_fold (expr : Expr) : expr.fold.fold = expr.fold ∧ ∀ node ∈ expr.fold.subtrees, node.fold = node :=
  ⟨expr.settled_fold.fold_eq, expr.settled_fold⟩

end Expr

end ReportEngine
