import ReportEngine.Expr.Basic

/-! Building trees with the checks that let evaluation rely on operators, operands and arguments. -/

namespace ReportEngine

namespace Expr

/-- A binary node, refused where the operator is not defined over the operand kind. Operands of other
kinds are converted when they are evaluated. -/
def binary? (op : BinaryOp) (operandKind : Kind) (overflow : OverflowPolicy) (lhs rhs : Expr) :
    Except ExprError Expr :=
  if op.supports operandKind then .ok (.binary op operandKind overflow lhs rhs)
  else .error (.unsupportedOperator op.name operandKind)

/-- A unary node, refused where the operator is not defined over the kind of its operand. -/
def unary? (op : UnaryOp) (overflow : OverflowPolicy) (operand : Expr) : Except ExprError Expr :=
  if op.supports operand.kind then .ok (.unary op overflow operand)
  else
    match op with
    | .negate => .error (.unsupportedOperator op.name operand.kind)
    | .not => .error (.kindMismatch .boolean operand.kind)

/-- Pairs conditions with results. A child left over has no partner. -/
private def pairs? : List Expr → Option (List (Expr × Expr))
  | [] => some []
  | [_] => none
  | condition :: result :: rest => (pairs? rest).map ((condition, result) :: ·)

/-- A switch over conditions and results in turn, of which there must be at least one of each. -/
def switch? (children : List Expr) : Except ExprError Expr :=
  match pairs? children with
  | some ((condition, result) :: others) => .ok (.switch condition result (.ofList others))
  | _ => .error (.invalidArity "Switch" "a positive even number of" children.length)

private theorem pairs?_eq_some : ∀ {children : List Expr} {pairs : List (Expr × Expr)},
    pairs? children = some pairs → children = (Branches.ofList pairs).children
  | [], _, paired => by cases paired; rfl
  | [_], _, paired => by cases paired
  | _ :: _ :: _, _, paired => by
    obtain ⟨_, remaining, rfl⟩ := Option.map_eq_some_iff.mp paired
    rw [pairs?_eq_some remaining]
    rfl

private theorem pairs?_children : ∀ branches : Branches,
    ∃ pairs, pairs? branches.children = some pairs ∧ Branches.ofList pairs = branches
  | .nil => ⟨[], rfl, rfl⟩
  | .cons condition result rest => by
    obtain ⟨pairs, paired, rfl⟩ := pairs?_children rest
    exact ⟨(condition, result) :: pairs, congrArg (Option.map _) paired, rfl⟩

theorem switch?_eq_ok {children : List Expr} {node : Expr} : switch? children = .ok node ↔
    ∃ condition result others, node = .switch condition result others ∧
      children = condition :: result :: others.children := by
  constructor
  · intro made
    unfold switch? at made
    split at made
    next paired =>
      cases made
      exact ⟨_, _, _, rfl, pairs?_eq_some paired⟩
    next => cases made
  · rintro ⟨condition, result, others, rfl, rfl⟩
    obtain ⟨pairs, paired, rfl⟩ := pairs?_children others
    have complete : pairs? (condition :: result :: (Branches.ofList pairs).children) =
        some ((condition, result) :: pairs) := congrArg (Option.map _) paired
    rw [switch?, complete]

def field? (schema : Schema) (name : String) : Except ExprError Expr :=
  (schema.fieldRef name).map .field

end Expr

mutual

/-- Holds of the trees that the checks above admit. -/
def Expr.WellBuilt : Expr → Prop
  | .binary op operandKind _ lhs rhs =>
    op.supports operandKind = true ∧ lhs.WellBuilt ∧ rhs.WellBuilt
  | .unary op _ operand => op.supports operand.kind = true ∧ operand.WellBuilt
  | .logical _ lhs rhs => lhs.WellBuilt ∧ rhs.WellBuilt
  | .switch condition result others => condition.WellBuilt ∧ result.WellBuilt ∧ others.WellBuilt
  | .iif condition consequent alternative =>
    condition.WellBuilt ∧ consequent.WellBuilt ∧ alternative.WellBuilt
  | .convert inner _ => inner.WellBuilt
  | .constant _ | .field _ | .parameter _ _ | .aggregate _ _ | .global _ => True

def Branches.WellBuilt : Branches → Prop
  | .nil => True
  | .cons condition result rest => condition.WellBuilt ∧ result.WellBuilt ∧ rest.WellBuilt

end

end ReportEngine
