import ReportEngine.Expr.Build

/-! The trees that can be built. A tree passes the checks exactly if each of its nodes was made by the
function that checks it, from parts that were made so themselves. -/

namespace ReportEngine

namespace Expr

/-- Built from the leaves up. Only the nodes that can be refused are made by a function of their own. -/
inductive Constructed : Expr → Prop where
  | constant (value : Value) : Constructed (constant value)
  | field (reference : FieldRef) : Constructed (field reference)
  | parameter (name : String) (kind : Kind) : Constructed (parameter name kind)
  | aggregate (name : String) (kind : Kind) : Constructed (aggregate name kind)
  | global (which : Global) : Constructed (global which)
  | binary {op : BinaryOp} {operandKind : Kind} {overflow : OverflowPolicy} {lhs rhs node : Expr}
      (left : Constructed lhs) (right : Constructed rhs)
      (made : binary? op operandKind overflow lhs rhs = .ok node) : Constructed node
  | unary {op : UnaryOp} {overflow : OverflowPolicy} {operand node : Expr} (inner : Constructed operand)
      (made : unary? op overflow operand = .ok node) : Constructed node
  | logical {op : LogicalOp} {lhs rhs : Expr} (left : Constructed lhs) (right : Constructed rhs) :
      Constructed (logical op lhs rhs)
  | switch {children : List Expr} {node : Expr} (parts : ∀ child ∈ children, Constructed child)
      (made : switch? children = .ok node) : Constructed node
  | iif {condition consequent alternative : Expr} (test : Constructed condition) (first : Constructed consequent)
      (second : Constructed alternative) : Constructed (iif condition consequent alternative)
  | convert {inner : Expr} {kind : Kind} (part : Constructed inner) : Constructed (convert inner kind)

theorem binary?_eq_ok {op : BinaryOp} {operandKind : Kind} {overflow : OverflowPolicy} {lhs rhs node : Expr} :
    binary? op operandKind overflow lhs rhs = .ok node ↔
      op.supports operandKind = true ∧ node = .binary op operandKind overflow lhs rhs := by
  unfold binary?
  split
  next supported => exact ⟨fun made => ⟨supported, (Except.ok.inj made).symm⟩, fun made => made.2 ▸ rfl⟩
  next refused => exact ⟨nofun, fun made => absurd made.1 refused⟩

theorem unary?_eq_ok {op : UnaryOp} {overflow : OverflowPolicy} {operand node : Expr} :
    unary? op overflow operand = .ok node ↔
      op.supports operand.kind = true ∧ node = .unary op overflow operand := by
  unfold unary?
  split
  next supported => exact ⟨fun made => ⟨supported, (Except.ok.inj made).symm⟩, fun made => made.2 ▸ rfl⟩
  next refused => cases op <;> exact ⟨nofun, fun made => absurd made.1 refused⟩

end Expr

theorem Branches.wellBuilt_iff : ∀ branches : Branches,
    branches.WellBuilt ↔ ∀ child ∈ branches.children, child.WellBuilt
  | .nil => ⟨fun _ => nofun, fun _ => trivial⟩
  | .cons condition result rest => by
    simp only [Branches.WellBuilt, Branches.children, List.forall_mem_cons, rest.wellBuilt_iff]

mutual

private theorem Expr.constructed : ∀ {expr : Expr}, expr.WellBuilt → expr.Constructed
  | .constant value, _ => .constant value
  | .field reference, _ => .field reference
  | .parameter name kind, _ => .parameter name kind
  | .aggregate name kind, _ => .aggregate name kind
  | .global which, _ => .global which
  | .binary .., built =>
    .binary (Expr.constructed built.2.1) (Expr.constructed built.2.2) (Expr.binary?_eq_ok.mpr ⟨built.1, rfl⟩)
  | .unary .., built => .unary (Expr.constructed built.2) (Expr.unary?_eq_ok.mpr ⟨built.1, rfl⟩)
  | .logical .., built => .logical (Expr.constructed built.1) (Expr.constructed built.2)
  | .switch _ _ _, built =>
    .switch (List.forall_mem_cons.mpr ⟨Expr.constructed built.1, List.forall_mem_cons.mpr
      ⟨Expr.constructed built.2.1, Branches.constructed built.2.2⟩⟩) (Expr.switch?_eq_ok.mpr ⟨_, _, _, rfl, rfl⟩)
  | .iif .., built => .iif (Expr.constructed built.1) (Expr.constructed built.2.1) (Expr.constructed built.2.2)
  | .convert .., built => .convert (Expr.constructed built)

private theorem Branches.constructed : ∀ {branches : Branches}, branches.WellBuilt →
    ∀ child ∈ branches.children, child.Constructed
  | .nil, _ => nofun
  | .cons _ _ _, built =>
    List.forall_mem_cons.mpr ⟨Expr.constructed built.1, List.forall_mem_cons.mpr
      ⟨Expr.constructed built.2.1, Branches.constructed built.2.2⟩⟩

end

/-- The checks that a tree has passed can be read off the tree. -/
theorem Expr.constructed_iff_wellBuilt {expr : Expr} : expr.Constructed ↔ expr.WellBuilt := by
  refine ⟨fun constructed => ?_, Expr.constructed⟩
  induction constructed with
  | constant | field | parameter | aggregate | global => trivial
  | binary _ _ made left right =>
    obtain ⟨supported, rfl⟩ := Expr.binary?_eq_ok.mp made
    exact ⟨supported, left, right⟩
  | unary _ made inner =>
    obtain ⟨supported, rfl⟩ := Expr.unary?_eq_ok.mp made
    exact ⟨supported, inner⟩
  | logical _ _ left right => exact ⟨left, right⟩
  | switch _ made parts =>
    obtain ⟨condition, result, others, rfl, rfl⟩ := Expr.switch?_eq_ok.mp made
    obtain ⟨test, parts⟩ := List.forall_mem_cons.mp parts
    obtain ⟨first, further⟩ := List.forall_mem_cons.mp parts
    exact ⟨test, first, others.wellBuilt_iff.mpr further⟩
  | iif _ _ _ test first second => exact ⟨test, first, second⟩
  | convert _ part => exact part

end ReportEngine
