import ReportEngine.Error

/-! Results together with the fields that were read on the way to them. -/

namespace ReportEngine

/-- A result or an error, and the indices of the fields asked for until then, in order. -/
structure Traced (α : Type) where
  reads : List Nat
  result : Except ExprError α

namespace Traced

variable {α β γ : Type}

protected def pure (value : α) : Traced α := ⟨[], .ok value⟩

/-- An error ends the trace. -/
protected def bind (first : Traced α) (next : α → Traced β) : Traced β :=
  match first.result with
  | .ok value => ⟨first.reads ++ (next value).reads, (next value).result⟩
  | .error error => ⟨first.reads, .error error⟩

instance : Monad Traced where
  pure := Traced.pure
  bind := Traced.bind

def ofExcept (result : Except ExprError α) : Traced α := ⟨[], result⟩

def read (index : Nat) (result : Except ExprError α) : Traced α := ⟨[index], result⟩

end Traced

end ReportEngine
