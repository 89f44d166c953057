import ReportEngine.Context

/-! Cancellation by others while a run goes on. A run looks at the token of its job before every row and before
every item; what it finds there is up to whoever else holds the token. -/

namespace ReportEngine

/-- Whether others are found to have cancelled the job before a row is taken into the aggregates, before the
cells of a row are evaluated, and before an item is driven. Rows and items are counted from 0. -/
structure Interruption where
  totals : Nat → Bool
  cells : Nat → Bool
  items : Nat → Bool

namespace Interruption

def none : Interruption := ⟨fun _ => false, fun _ => false, fun _ => false⟩

end Interruption

/-- A look before one of the rows from an index on finds the job cancelled. -/
def FoundCancelled (context : Context) (interrupted : Nat → Bool) (index count : Nat) : Prop :=
  ∃ row, index ≤ row ∧ row < index + count ∧ (context.cancelled || interrupted row) = true

section FoundCancelled

variable {context : Context} {interrupted : Nat → Bool} {index count : Nat}

theorem FoundCancelled.here (found : (context.cancelled || interrupted index) = true) :
    FoundCancelled context interrupted index (count + 1) :=
  ⟨index, Nat.le_refl _, by omega, found⟩

theorem FoundCancelled.later (found : FoundCancelled context interrupted (index + 1) count) :
    FoundCancelled context interrupted index (count + 1) := by
  obtain ⟨row, behind, inside, found⟩ := found
  exact ⟨row, by omega, by omega, found⟩

theorem not_foundCancelled (running : context.cancelled = false)
    (undisturbed : ∀ row < count, interrupted row = false) : ¬ FoundCancelled context interrupted 0 count := by
  intro ⟨row, _, inside, found⟩
  rw [running, undisturbed row (by omega)] at found
  cases found

end FoundCancelled

end ReportEngine
