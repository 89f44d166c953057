import ReportEngine.Kind

/-! What can go wrong while an expression is built or evaluated. -/

namespace ReportEngine

/-- A conversion that fails is reported with the text of its value. Writing that text can itself overflow: then there
is none, and the program stops. -/
inductive ExprError where
  | conversion (value : Option String) (source target : Kind)
  | divideByZero (op : String) (kind : Kind)
  | overflow (op : String) (kind : Kind)
  | unboundReference (name : String)
  | unsupportedOperator (op : String) (kind : Kind)
  | invalidArity (function expected : String) (found : Nat)
  | kindMismatch (expected found : Kind)
deriving DecidableEq, Repr

namespace ExprError

def message : ExprError → String
  | conversion value source target =>
    "Cannot convert `" ++ value.getD "" ++ "` of kind " ++ source.name ++ " to kind " ++ target.name ++ "."
  | divideByZero op kind => "Division by zero in `" ++ op ++ "` over kind " ++ kind.name ++ "."
  | overflow op kind => "Arithmetic overflow in `" ++ op ++ "` over kind " ++ kind.name ++ "."
  | unboundReference name => "Reference `" ++ name ++ "` is not bound in the current context."
  | unsupportedOperator op kind =>
    "Operator `" ++ op ++ "` is not defined over kind " ++ kind.name ++ "."
  | invalidArity function expected found =>
    "Function `" ++ function ++ "` expects " ++ expected ++ " arguments, found " ++ found.repr ++ "."
  | kindMismatch expected found =>
    "Expected an operand of kind " ++ expected.name ++ ", found kind " ++ found.name ++ "."

/-- Whether the program stops instead of handing the error on. Nothing in it catches that, so whatever is made of such
an error further on, a tree kept as it is or a marker in a cell, is never seen. -/
def stops : ExprError → Bool
  | conversion none _ _ => true
  | _ => false

def isArithmetic : ExprError → Bool
  | divideByZero _ _ | overflow _ _ => true
  | _ => false

end ExprError

section Results

variable {ε α β : Type} {outcome : Except ε α} {made : α → β} {error : ε}

theorem map_eq_ok {result : β} (reached : outcome.map made = .ok result) :
    ∃ inner, outcome = .ok inner ∧ result = made inner := by
  cases outcome with
  | error _ => cases reached
  | ok inner => cases reached; exact ⟨inner, rfl, rfl⟩

theorem map_eq_error (failed : outcome.map made = .error error) : outcome = .error error := by
  cases outcome with
  | error _ => cases failed; rfl
  | ok _ => cases failed

theorem map_eq_error_iff : outcome.map made = .error error ↔ outcome = .error error :=
  ⟨map_eq_error, fun failed => failed ▸ rfl⟩

theorem bind_eq_ok {first : Except ε α} {further : α → Except ε β} {result : β} :
    first.bind further = .ok result ↔ ∃ value, first = .ok value ∧ further value = .ok result := by
  cases first with
  | error problem => exact ⟨nofun, nofun⟩
  | ok value =>
    constructor
    · intro succeeded
      exact ⟨value, rfl, succeeded⟩
    · rintro ⟨_, same, succeeded⟩
      cases same
      exact succeeded

theorem toOption_eq_some {value : α} : outcome.toOption = some value ↔ outcome = .ok value := by
  cases outcome with
  | error problem => exact ⟨nofun, nofun⟩
  | ok reached =>
    constructor
    · intro same
      exact congrArg _ (Option.some.inj same)
    · intro same
      exact congrArg _ (Except.ok.inj same)

end Results

end ReportEngine
