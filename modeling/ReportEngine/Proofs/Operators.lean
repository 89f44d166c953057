import ReportEngine.Expr.Eval
import ReportEngine.Proofs.Conversion

/-! Operators over values of one kind. Where an operator supports the kind, it answers a value of the
kind it declares, or fails by a division by zero or by an overflow that its policy traps. -/

namespace ReportEngine

namespace OverflowPolicy

variable {policy : OverflowPolicy} {op : String} {checked : Option Int32} {wrapped saturated : Int32}

theorem resolve_error {error : ExprError} (failed : policy.resolve op checked wrapped saturated = .error error) :
    policy = .trap ∧ error = .overflow op .int32 := by
  cases policy with
  | wrap | saturate => cases failed
  | trap =>
    cases checked with
    | some _ => cases failed
    | none => cases failed; exact ⟨rfl, rfl⟩

/-- No policy matters where nothing overflows. -/
theorem resolve_fitting (policy : OverflowPolicy) (op : String) (result : Int32) :
    policy.resolve op (some result) result result = .ok result := by
  cases policy <;> rfl

end OverflowPolicy

namespace Arithmetic

variable {op : Arithmetic} {policy : OverflowPolicy} {left right result : Value} {error : ExprError}

theorem kind_of_apply (reached : op.apply policy left right = .ok result) : result.kind = left.kind := by
  unfold apply at reached
  split at reached
  · obtain ⟨_, _, rfl⟩ := map_eq_ok reached; rfl
  · cases reached; rfl
  · obtain ⟨_, _, rfl⟩ := map_eq_ok reached; rfl
  · split at reached <;> cases reached
    rfl
  · cases reached

private theorem applyInt32_error {a b : Int32} (failed : op.applyInt32 policy a b = .error error) :
    error = .divideByZero op.name .int32 ∨ policy = .trap ∧ error = .overflow op.name .int32 := by
  unfold applyInt32 at failed
  split at failed
  · cases failed; exact .inl rfl
  · exact .inr (OverflowPolicy.resolve_error failed)

private theorem applyDecimal_error {a b : Decimal} (failed : op.applyDecimal a b = .error error) :
    error = .divideByZero op.name .decimal := by
  unfold applyDecimal at failed
  split at failed
  · cases failed; rfl
  · cases op <;> cases failed

theorem apply_error (supported : op.supports left.kind = true) (same : right.kind = left.kind)
    (failed : op.apply policy left right = .error error) :
    error = .divideByZero op.name left.kind ∨
      left.kind = .int32 ∧ policy = .trap ∧ error = .overflow op.name .int32 := by
  cases left with
  | int32 a =>
    cases right with
    | int32 b =>
      rcases applyInt32_error (map_eq_error failed) with divided | ⟨trapped, rfl⟩
      · exact .inl divided
      · exact .inr ⟨rfl, trapped, rfl⟩
    | _ => cases same
  | decimal a =>
    cases right with
    | decimal b => exact .inl (applyDecimal_error (map_eq_error failed))
    | _ => cases same
  | double a =>
    cases right with
    | double b => cases failed
    | _ => cases same
  | string a =>
    cases right with
    | string b =>
      have joined : op = .add := by simpa [supports, Kind.isNumeric, Value.kind] using supported
      subst joined
      cases failed
    | _ => cases same
  | empty | boolean _ | dateTime _ => simp [supports, Kind.isNumeric, Value.kind] at supported

end Arithmetic

namespace BinaryOp

variable {op : BinaryOp} {policy : OverflowPolicy} {left right result : Value} {error : ExprError}

theorem kind_of_apply (reached : op.apply policy left right = .ok result) :
    result.kind = op.resultKind left.kind := by
  cases op with
  | arithmetic op => exact Arithmetic.kind_of_apply reached
  | comparison test => cases reached; rfl

theorem apply_error (supported : op.supports left.kind = true) (same : right.kind = left.kind)
    (failed : op.apply policy left right = .error error) :
    error = .divideByZero op.name left.kind ∨
      left.kind = .int32 ∧ policy = .trap ∧ error = .overflow op.name .int32 := by
  cases op with
  | comparison test => cases failed
  | arithmetic op => exact Arithmetic.apply_error supported same failed

/-- No operator is defined over values of any kind. -/
theorem supports_definite {kind : Kind} (supported : op.supports kind = true) : kind ≠ .variant := by
  rintro rfl
  cases op with
  | arithmetic op => cases op <;> cases supported
  | comparison test => cases supported

theorem resultKind_definite {kind : Kind} (supported : op.supports kind = true) : op.resultKind kind ≠ .variant := by
  cases op with
  | arithmetic op => exact supports_definite supported
  | comparison test => nofun

end BinaryOp

namespace UnaryOp

variable {op : UnaryOp} {policy : OverflowPolicy} {value result : Value} {error : ExprError}

theorem kind_of_apply (reached : op.apply policy value = .ok result) : result.kind = value.kind := by
  unfold apply at reached
  split at reached
  · cases reached; rfl
  · obtain ⟨_, _, rfl⟩ := map_eq_ok reached; rfl
  · cases reached; rfl
  · cases reached; rfl
  · cases reached

theorem apply_error (supported : op.supports value.kind = true) (failed : op.apply policy value = .error error) :
    op = .negate ∧ value.kind = .int32 ∧ policy = .trap ∧ error = .overflow op.name .int32 := by
  cases op with
  | not =>
    cases value with
    | boolean b => cases failed
    | _ => cases supported
  | negate =>
    cases value with
    | int32 n => exact ⟨rfl, rfl, OverflowPolicy.resolve_error (map_eq_error failed)⟩
    | double _ | decimal _ => cases failed
    | _ => cases supported

theorem supports_definite {kind : Kind} (supported : op.supports kind = true) : kind ≠ .variant := by
  rintro rfl
  cases op <;> cases supported

end UnaryOp

end ReportEngine
