import ReportEngine.Expr.Build

/-! The nodes of a tree, each given as the tree below it. What holds of all of them is stated as a
condition on the members of this list. -/

namespace ReportEngine

mutual

/-- The tree itself and all trees below it, in the order they are written. -/
def Expr.subtrees : Expr → List Expr
  | .binary op operandKind overflow lhs rhs =>
    .binary op operandKind overflow lhs rhs :: (lhs.subtrees ++ rhs.subtrees)
  | .unary op overflow operand => .unary op overflow operand :: operand.subtrees
  | .logical op lhs rhs => .logical op lhs rhs :: (lhs.subtrees ++ rhs.subtrees)
  | .switch condition result others =>
    .switch condition result others :: (condition.subtrees ++ (result.subtrees ++ others.subtrees))
  | .iif condition consequent alternative =>
    .iif condition consequent alternative ::
      (condition.subtrees ++ (consequent.subtrees ++ alternative.subtrees))
  | .convert inner kind => .convert inner kind :: inner.subtrees
  | .constant value => [.constant value]
  | .field reference => [.field reference]
  | .parameter name kind => [.parameter name kind]
  | .aggregate name kind => [.aggregate name kind]
  | .global which => [.global which]

def Branches.subtrees : Branches → List Expr
  | .nil => []
  | .cons condition result rest => condition.subtrees ++ (result.subtrees ++ rest.subtrees)

end

theorem Expr.self_mem_subtrees (expr : Expr) : expr ∈ expr.subtrees := by
  cases expr <;> exact List.mem_cons_self

theorem Branches.subtrees_eq : ∀ branches : Branches, branches.subtrees = branches.children.flatMap Expr.subtrees
  | .nil => rfl
  | .cons condition result rest => by
    rw [Branches.subtrees, Branches.children, List.flatMap_cons, List.flatMap_cons, rest.subtrees_eq]

theorem Expr.subtrees_eq (expr : Expr) : expr.subtrees = expr :: expr.children.flatMap Expr.subtrees := by
  cases expr with
  | switch condition result others =>
    rw [Expr.subtrees, Expr.children, List.flatMap_cons, List.flatMap_cons, others.subtrees_eq]
  | binary | unary | logical | iif | convert =>
    simp only [Expr.subtrees, Expr.children, List.flatMap_cons, List.flatMap_nil, List.append_nil]
  | constant | field | parameter | aggregate | «global» => rfl

theorem Branches.nodeCount_le_of_mem_children {child : Expr} : ∀ {branches : Branches}, child ∈ branches.children →
    child.nodeCount ≤ branches.nodeCount
  | .cons condition result rest, member => by
    rw [Branches.nodeCount]
    rcases List.mem_cons.mp member with rfl | member
    · omega
    · rcases List.mem_cons.mp member with rfl | later
      · omega
      · have below := Branches.nodeCount_le_of_mem_children later
        omega

theorem Expr.nodeCount_lt_of_mem_children {node child : Expr} (member : child ∈ node.children) :
    child.nodeCount < node.nodeCount := by
  cases node with
  | switch condition result others =>
    rw [Expr.nodeCount]
    rcases List.mem_cons.mp member with rfl | member
    · omega
    · rcases List.mem_cons.mp member with rfl | later
      · omega
      · have below := Branches.nodeCount_le_of_mem_children later
        omega
  | binary | unary | logical | iif | convert =>
    simp only [Expr.children, List.mem_cons, List.not_mem_nil, or_false] at member
    rw [Expr.nodeCount]
    rcases member with rfl | rfl | rfl <;> omega
  | constant | field | parameter | aggregate | «global» => cases member

theorem Expr.ne_of_mem_children {node child : Expr} (member : child ∈ node.children) : child ≠ node :=
  fun same => absurd (same ▸ Expr.nodeCount_lt_of_mem_children member) (Nat.lt_irrefl _)

/-- Holds of lists of trees that leave out no tree below one they hold. -/
def Closed (trees : List Expr) : Prop := ∀ node ∈ trees, node.subtrees ⊆ trees

private theorem closed_append {left right : List Expr} (leftClosed : Closed left) (rightClosed : Closed right) :
    Closed (left ++ right) :=
  List.forall_mem_append.mpr
    ⟨fun node below => List.subset_append_of_subset_left _ (leftClosed node below),
      fun node below => List.subset_append_of_subset_right _ (rightClosed node below)⟩

private theorem closed_cons {root : Expr} {below : List Expr} (whole : root.subtrees = root :: below)
    (closed : Closed below) : Closed (root :: below) :=
  List.forall_mem_cons.mpr
    ⟨whole ▸ List.Subset.refl _, fun node member => List.subset_cons_of_subset _ (closed node member)⟩

private theorem closed_nil : Closed [] := nofun

mutual

theorem Expr.closed_subtrees : ∀ expr : Expr, Closed expr.subtrees
  | .binary _ _ _ lhs rhs => closed_cons rfl (closed_append lhs.closed_subtrees rhs.closed_subtrees)
  | .unary _ _ operand => closed_cons rfl operand.closed_subtrees
  | .logical _ lhs rhs => closed_cons rfl (closed_append lhs.closed_subtrees rhs.closed_subtrees)
  | .switch condition result others =>
    closed_cons rfl (closed_append condition.closed_subtrees
      (closed_append result.closed_subtrees others.closed_subtrees))
  | .iif condition consequent alternative =>
    closed_cons rfl (closed_append condition.closed_subtrees
      (closed_append consequent.closed_subtrees alternative.closed_subtrees))
  | .convert inner _ => closed_cons rfl inner.closed_subtrees
  | .constant _ | .field _ | .parameter _ _ | .aggregate _ _ | .global _ => closed_cons rfl closed_nil

theorem Branches.closed_subtrees : ∀ branches : Branches, Closed branches.subtrees
  | .nil => closed_nil
  | .cons condition result rest =>
    closed_append condition.closed_subtrees (closed_append result.closed_subtrees rest.closed_subtrees)

end

mutual

/-- The checks on a tree were made on every tree below it. -/
theorem Expr.wellBuilt_subtrees : ∀ expr : Expr, expr.WellBuilt → ∀ node ∈ expr.subtrees, node.WellBuilt
  | .binary _ _ _ lhs rhs, built =>
    List.forall_mem_cons.mpr ⟨built, List.forall_mem_append.mpr
      ⟨lhs.wellBuilt_subtrees built.2.1, rhs.wellBuilt_subtrees built.2.2⟩⟩
  | .unary _ _ operand, built => List.forall_mem_cons.mpr ⟨built, operand.wellBuilt_subtrees built.2⟩
  | .logical _ lhs rhs, built =>
    List.forall_mem_cons.mpr ⟨built, List.forall_mem_append.mpr
      ⟨lhs.wellBuilt_subtrees built.1, rhs.wellBuilt_subtrees built.2⟩⟩
  | .switch condition result others, built =>
    List.forall_mem_cons.mpr ⟨built, List.forall_mem_append.mpr
      ⟨condition.wellBuilt_subtrees built.1, List.forall_mem_append.mpr
        ⟨result.wellBuilt_subtrees built.2.1, others.wellBuilt_subtrees built.2.2⟩⟩⟩
  | .iif condition consequent alternative, built =>
    List.forall_mem_cons.mpr ⟨built, List.forall_mem_append.mpr
      ⟨condition.wellBuilt_subtrees built.1, List.forall_mem_append.mpr
        ⟨consequent.wellBuilt_subtrees built.2.1, alternative.wellBuilt_subtrees built.2.2⟩⟩⟩
  | .convert inner _, built => List.forall_mem_cons.mpr ⟨built, inner.wellBuilt_subtrees built⟩
  | .constant _, built | .field _, built | .parameter _ _, built | .aggregate _ _, built | .global _, built =>
    List.forall_mem_cons.mpr ⟨built, nofun⟩

theorem Branches.wellBuilt_subtrees : ∀ branches : Branches, branches.WellBuilt →
    ∀ node ∈ branches.subtrees, node.WellBuilt
  | .nil, _ => nofun
  | .cons condition result rest, built =>
    List.forall_mem_append.mpr ⟨condition.wellBuilt_subtrees built.1, List.forall_mem_append.mpr
      ⟨result.wellBuilt_subtrees built.2.1, rest.wellBuilt_subtrees built.2.2⟩⟩

end

end ReportEngine
