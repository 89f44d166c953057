import ReportEngine.Proofs.KindSoundness
import ReportEngine.Proofs.ReadOrder
import ReportEngine.Proofs.RightIdentity

/-! The ways in which folding changes a node once its children are folded. Each keeps the checks that
were made on the node, its kind, and the result and the reads of its evaluation. Only the decimal zero
that is dropped from a sum may be missed, for it can raise the scale of the sum. -/

namespace ReportEngine.Expr

variable {context : Context} {fields : Fields}

section Constants

/-- A constant tree comes out the same in every context and row. -/
theorem eval_of_isConstant (other : Context) (row : Fields) : ∀ expr : Expr, expr.isConstant = true →
    expr.eval context fields = expr.eval other row
  | constant _, _ => rfl
  | binary _ _ _ lhs rhs, closed => by
    have parts := Bool.and_eq_true_iff.mp closed
    rw [eval, eval, eval_of_isConstant other row lhs parts.1, eval_of_isConstant other row rhs parts.2]
  | unary op _ operand, closed => by
    cases op <;> rw [eval, eval, eval_of_isConstant other row operand closed]
  | logical _ lhs rhs, closed => by
    have parts := Bool.and_eq_true_iff.mp closed
    rw [eval, eval, eval_of_isConstant other row lhs parts.1, eval_of_isConstant other row rhs parts.2]
  | iif condition consequent alternative, closed => by
    have parts := Bool.and_eq_true_iff.mp closed
    have first := Bool.and_eq_true_iff.mp parts.1
    rw [eval, eval, eval_of_isConstant other row condition first.1,
      eval_of_isConstant other row consequent first.2, eval_of_isConstant other row alternative parts.2]
  | convert inner _, closed => by
    rw [eval, eval, eval_of_isConstant other row inner closed]

private theorem references_of_isConstant : ∀ expr : Expr, expr.isConstant = true → expr.references = []
  | constant _, _ => rfl
  | binary _ _ _ lhs rhs, closed => by
    have parts := Bool.and_eq_true_iff.mp closed
    rw [references_binary, references_of_isConstant lhs parts.1, references_of_isConstant rhs parts.2]
    rfl
  | logical _ lhs rhs, closed => by
    have parts := Bool.and_eq_true_iff.mp closed
    rw [references_logical, references_of_isConstant lhs parts.1, references_of_isConstant rhs parts.2]
    rfl
  | iif condition consequent alternative, closed => by
    have parts := Bool.and_eq_true_iff.mp closed
    have first := Bool.and_eq_true_iff.mp parts.1
    rw [references_iif, references_of_isConstant condition first.1, references_of_isConstant consequent first.2,
      references_of_isConstant alternative parts.2]
    rfl
  | unary _ _ inner, closed | convert inner _, closed => references_of_isConstant inner closed

/-- A constant tree asks the row for nothing, however far its evaluation gets. -/
theorem reads_of_isConstant (expr : Expr) (closed : expr.isConstant = true) : (expr.eval context fields).reads = [] := by
  have reads := @reads_sublist context fields expr
  rw [references_of_isConstant expr closed] at reads
  exact List.eq_nil_of_sublist_nil reads

/-- What a constant tree comes out as where nothing is bound may stand in its place. -/
theorem eval_of_reached {expr : Expr} {value : Value} (closed : expr.isConstant = true)
    (reached : expr.value .detached (fun _ => none) = .ok value) : expr.eval context fields = .pure value := by
  have silent : (expr.eval .detached fun _ => none).reads = [] := reads_of_isConstant expr closed
  rw [eval_of_isConstant .detached (fun _ => none) expr closed, Traced.pure, ← silent, ← reached]
  rfl

/-- A constant tree has the same value or the same error wherever it is evaluated, and asks the row for nothing. Hence
it may be evaluated once and for all where nothing is bound: what it is folded to is what every row would see. -/
theorem constant_closed (expr : Expr) (closed : expr.isConstant = true) :
    (∀ context other fields row, expr.value context fields = expr.value other row) ∧
      (∀ context fields, (expr.eval context fields).reads = []) ∧
      ∀ context fields, expr.value .detached Row.empty.fields = expr.value context fields ∧
        expr.foldConstant.eval context fields = expr.eval context fields := by
  have same : ∀ context other fields row, expr.value context fields = expr.value other row := by
    intro context other fields row
    rw [value, eval_of_isConstant other row expr closed, value]
  refine ⟨same, fun _ _ => reads_of_isConstant expr closed, fun context fields => ⟨same _ _ _ _, ?_⟩⟩
  cases outcome : expr.value .detached fun _ => none with
  | ok value =>
    simp only [foldConstant, outcome]
    exact (eval_of_reached closed outcome).symm
  | error error => simp only [foldConstant, outcome]

/-- A division by zero, chosen by a condition, is kept, and fails on page 7 and a row of dates as it did before. -/
theorem constant_closed_division :
    let expr := iif (constant (.boolean true))
      (binary (.arithmetic .div) .int32 .wrap (constant (.int32 1)) (constant (.int32 0))) (constant (.int32 2))
    let context := (Context.named "Inventory").setPage 7 9
    let fields : Fields := fun _ => some (.dateTime .first)
    expr.isConstant = true ∧ expr.foldConstant = expr ∧
      expr.value .detached Row.empty.fields = .error (.divideByZero "div" .int32) ∧
      expr.value context fields = .error (.divideByZero "div" .int32) ∧ (expr.eval context fields).reads = [] ∧
      expr.foldConstant.eval context fields = expr.eval context fields := by
  intro expr context fields
  obtain ⟨_, silent, folded⟩ := constant_closed expr rfl
  obtain ⟨same, kept⟩ := folded context fields
  have failed : expr.value .detached Row.empty.fields = .error (.divideByZero "div" .int32) := rfl
  exact ⟨rfl, rfl, failed, same.symm.trans failed, silent context fields, kept⟩

end Constants

/-- A tree that cannot come out empty has values of its own kind. -/
theorem kind_of_total {expr : Expr} {value : Value} (built : expr.WellBuilt) (total : expr.mayYieldEmpty = false)
    (reached : expr.value context fields = .ok value) : expr.kind = .variant ∨ value.kind = expr.kind := by
  rcases expr.promises_value built reached with indefinite | kinded | ⟨_, admits⟩
  · exact .inl indefinite
  · exact .inr kinded
  · rw [total] at admits
    cases admits

theorem convert_of_total {expr : Expr} {kind : Kind} (built : expr.WellBuilt) (kinded : expr.kind = kind)
    (total : kind = .variant ∨ expr.mayYieldEmpty = false) :
    (expr.eval context fields).convert kind = expr.eval context fields := by
  subst kinded
  refine Traced.bind_eq_self fun value reached => ?_
  have promised : expr.kind = .variant ∨ value.kind = expr.kind :=
    total.elim .inl fun total => kind_of_total built total reached
  have kept : value.convert expr.kind = .ok value := by
    rcases promised with indefinite | same
    · rw [indefinite, Value.convert_variant]
    · rw [← same, Value.convert_kind]
  rw [kept]
  rfl

private theorem truth_of_literal {value : Value} {truth : Bool} (reached : value.toBoolean = .ok truth) :
    ((constant value).eval context fields).truth = .pure truth := by
  rw [Expr.eval, Traced.truth, Traced.pure_bind, reached]
  rfl

/-- What a node with folded children may be replaced by. -/
inductive Rewrites : Expr → Expr → Prop where
  | keep (node : Expr) : Rewrites node node
  | evaluate {node : Expr} {value : Value} (closed : node.isConstant = true) (definite : node.kind ≠ .variant)
      (total : node.mayYieldEmpty = false) (reached : node.value .detached (fun _ => none) = .ok value) :
      Rewrites node (constant value)
  | dropNeutral {op : BinaryOp} {operandKind : Kind} {overflow : OverflowPolicy} {lhs : Expr} {value : Value}
      (neutral : RightNeutral op value) (literal : value.kind = operandKind) (kinded : lhs.kind = operandKind)
      (total : lhs.mayYieldEmpty = false) : Rewrites (binary op operandKind overflow lhs (constant value)) lhs
  | decide {op : LogicalOp} {value : Value} {rhs : Expr} (decided : value.toBoolean = .ok op.deciding) :
      Rewrites (logical op (constant value) rhs) (constant (.boolean op.deciding))
  | dropLeft {op : LogicalOp} {value : Value} {left : Bool} {rhs : Expr} (reached : value.toBoolean = .ok left)
      (undecided : left ≠ op.deciding) (kinded : rhs.kind = .boolean) (total : rhs.mayYieldEmpty = false) :
      Rewrites (logical op (constant value) rhs) rhs
  | dropConversion {inner : Expr} {kind : Kind} (kinded : inner.kind = kind)
      (total : kind = .variant ∨ inner.mayYieldEmpty = false) : Rewrites (convert inner kind) inner
  | chooseConsequent {value : Value} {consequent alternative : Expr} (chosen : value.toBoolean = .ok true) :
      Rewrites (iif (constant value) consequent alternative) consequent
  | chooseAlternative {value : Value} {consequent alternative : Expr} (refused : value.toBoolean = .ok false)
      (kinded : alternative.kind = consequent.kind) :
      Rewrites (iif (constant value) consequent alternative) alternative
  | convertAlternative {value : Value} {consequent alternative folded : Expr}
      (refused : value.toBoolean = .ok false) (differs : alternative.kind ≠ consequent.kind)
      (converted : Rewrites (convert alternative consequent.kind) folded) :
      Rewrites (iif (constant value) consequent alternative) folded

section Steps

theorem foldConstant_rewrites {node : Expr} (closed : node.isConstant = true) (definite : node.kind ≠ .variant)
    (total : node.mayYieldEmpty = false) : Rewrites node node.foldConstant := by
  cases outcome : node.value .detached fun _ => none with
  | ok value =>
    simp only [foldConstant, outcome]
    exact .evaluate closed definite total outcome
  | error error =>
    simp only [foldConstant, outcome]
    exact .keep node

theorem foldBinary_rewrites {op : BinaryOp} {operandKind : Kind} {overflow : OverflowPolicy} {lhs rhs : Expr}
    (supported : op.supports operandKind = true) :
    Rewrites (binary op operandKind overflow lhs rhs) (foldBinary op operandKind overflow lhs rhs) := by
  rw [foldBinary]
  split
  next closed => exact foldConstant_rewrites closed (BinaryOp.resultKind_definite supported) rfl
  next =>
    split
    next dropped =>
      simp only [Bool.and_eq_true, Bool.not_eq_true', beq_iff_eq] at dropped
      obtain ⟨⟨identity, kinded⟩, total⟩ := dropped
      obtain ⟨value, rfl, literal, neutral⟩ := rightNeutral identity
      exact .dropNeutral neutral literal (kinded.trans neutral.resultKind) total
    next => exact .keep _

theorem foldUnary_rewrites {op : UnaryOp} (overflow : OverflowPolicy) {operand : Expr}
    (supported : op.supports operand.kind = true) :
    Rewrites (unary op overflow operand) (foldUnary op overflow operand) := by
  rw [foldUnary]
  split
  next closed => exact foldConstant_rewrites closed (UnaryOp.supports_definite supported) rfl
  next => exact .keep _

private theorem literalTruth {expr : Expr} {truth : Bool} (known : expr.literalTruth? = some truth) :
    ∃ value, expr = constant value ∧ value.toBoolean = .ok truth := by
  cases expr with
  | constant value =>
    refine ⟨value, rfl, ?_⟩
    rw [literalTruth?] at known
    cases outcome : value.toBoolean with
    | ok decided => rw [outcome] at known; cases known; rfl
    | error error => rw [outcome] at known; cases known
  | _ => cases known

theorem foldLogical_rewrites {op : LogicalOp} {lhs rhs : Expr} :
    Rewrites (logical op lhs rhs) (foldLogical op lhs rhs) := by
  cases known : lhs.literalTruth? with
  | none =>
    simp only [foldLogical, known]
    exact .keep _
  | some left =>
    simp only [foldLogical, known]
    obtain ⟨value, rfl, reached⟩ := literalTruth known
    split
    next decided =>
      cases eq_of_beq decided
      exact .decide reached
    next undecided =>
      split
      next closed => exact foldConstant_rewrites (Bool.and_eq_true_iff.mpr ⟨rfl, closed⟩) nofun rfl
      next =>
        split
        next dropped =>
          simp only [Bool.and_eq_true, Bool.not_eq_true', beq_iff_eq] at dropped
          exact .dropLeft reached (fun same => undecided (beq_iff_eq.mpr same)) dropped.1 dropped.2
        next => exact .keep _

theorem foldConvert_rewrites {inner : Expr} {kind : Kind} :
    Rewrites (convert inner kind) (foldConvert inner kind) := by
  rw [foldConvert]
  split
  next dropped =>
    simp only [Bool.and_eq_true, Bool.or_eq_true, Bool.not_eq_true', beq_iff_eq] at dropped
    exact .dropConversion dropped.1 dropped.2
  next =>
    split
    next closed =>
      simp only [Bool.and_eq_true, bne_iff_ne] at closed
      exact foldConstant_rewrites closed.1 closed.2 rfl
    next => exact .keep _

theorem foldIif_rewrites {kind : Kind} {condition consequent alternative : Expr} (kinded : consequent.kind = kind) :
    Rewrites (iif condition consequent alternative) (foldIif kind condition consequent alternative) := by
  subst kinded
  cases known : condition.literalTruth? with
  | none =>
    simp only [foldIif, known]
    exact .keep _
  | some chosen =>
    obtain ⟨value, rfl, reached⟩ := literalTruth known
    cases chosen with
    | true =>
      simp only [foldIif, known]
      exact .chooseConsequent reached
    | false =>
      simp only [foldIif, known]
      split
      next same => exact .chooseAlternative reached (eq_of_beq same)
      next differs =>
        exact .convertAlternative reached (fun same => differs (beq_iff_eq.mpr same)) foldConvert_rewrites

end Steps

namespace Rewrites

variable {node folded : Expr}

theorem checked (rewrites : Rewrites node folded) (built : node.WellBuilt) :
    folded.WellBuilt ∧ folded.kind = node.kind := by
  induction rewrites with
  | keep node => exact ⟨built, rfl⟩
  | evaluate closed definite total reached =>
    exact ⟨trivial, (kind_of_total built total reached).resolve_left definite⟩
  | dropNeutral neutral literal kinded total => exact ⟨built.2.1, kinded.trans neutral.resultKind.symm⟩
  | decide decided => exact ⟨trivial, rfl⟩
  | dropLeft reached undecided kinded total => exact ⟨built.2, kinded⟩
  | dropConversion kinded total => exact ⟨built, kinded⟩
  | chooseConsequent chosen => exact ⟨built.2.1, rfl⟩
  | chooseAlternative refused kinded => exact ⟨built.2.2, kinded⟩
  | convertAlternative refused differs converted kept => exact kept built.2.2

/-- A rewrite is not seen in any evaluation, if a decimal zero is only dropped from a sum whose left
operand is written with as many places. -/
theorem eval (rewrites : Rewrites node folded) (built : node.WellBuilt)
    (reaches : ∀ {overflow lhs rhs whole zero}, node = binary (.arithmetic .add) .decimal overflow lhs rhs →
      folded = lhs → lhs.value context fields = .ok (.decimal whole) →
      rhs.value context fields = .ok (.decimal zero) → zero.scale ≤ whole.scale) :
    folded.eval context fields = node.eval context fields := by
  induction rewrites with
  | keep node => rfl
  | evaluate closed definite total reached => exact (eval_of_reached closed reached).symm
  | @dropNeutral op operandKind overflow lhs value neutral literal kinded total =>
    have definite := BinaryOp.supports_definite built.1
    rw [eval_binary built.1, convert_of_total built.2.1 kinded (.inr total)]
    refine (Traced.bind_eq_self fun left reached => ?_).symm
    have leftKind := (kind_of_total built.2.1 total reached).resolve_left (kinded ▸ definite)
    have applied : op.apply overflow left value = .ok left := by
      have sameKind : left.kind = value.kind := leftKind.trans (kinded.trans literal.symm)
      refine neutral.apply overflow sameKind fun whole zero isAdd isWhole isZero => ?_
      subst isAdd isWhole isZero literal
      exact reaches rfl rfl reached rfl
    rw [convert_of_total (show (constant value).WellBuilt from trivial) literal (.inr rfl), Expr.eval,
      Traced.pure_bind, applied]
    rfl
  | decide decided =>
    rw [Expr.eval, Expr.eval, truth_of_literal decided, Traced.pure_bind, if_pos rfl]
  | dropLeft reached undecided kinded total =>
    rw [Expr.eval, truth_of_literal reached, Traced.pure_bind, if_neg undecided, Traced.truth_boolean,
      convert_of_total built.2 kinded (.inr total)]
  | @dropConversion inner kind kinded total =>
    rw [Expr.eval, convert_of_total (show inner.WellBuilt from built) kinded total]
  | chooseConsequent chosen =>
    rw [Expr.eval, truth_of_literal chosen, Traced.pure_bind, if_pos rfl]
  | chooseAlternative refused kinded =>
    rw [Expr.eval, truth_of_literal refused, Traced.pure_bind, if_neg Bool.false_ne_true, if_pos kinded]
  | convertAlternative refused differs converted kept =>
    refine (kept built.2.2 fun same => Expr.noConfusion same).trans (Eq.symm ?_)
    rw [Expr.eval, truth_of_literal refused, Traced.pure_bind, if_neg Bool.false_ne_true, if_neg differs, Expr.eval]

end Rewrites

end ReportEngine.Expr
