import ReportEngine.Value.Convert

/-! What a conversion answers where it succeeds: a value of the kind asked for. A value that has the
kind already is left as it is, and the empty value becomes the zero of the kind. -/

namespace ReportEngine

namespace Kind

/-- What the empty value converts to. There is nothing to convert it to under `variant`. -/
def emptyValue : Kind → Value
  | boolean => .boolean false
  | int32 => .int32 0
  | double => .double .zero
  | decimal => .decimal .zero
  | string => .string ""
  | dateTime => .dateTime .first
  | variant => .empty

/-- A value with nothing replaced by what it converts to. -/
def filled (kind : Kind) : Value → Value
  | .empty => kind.emptyValue
  | value => value

end Kind

namespace Value

variable {value result : Value} {kind : Kind}

@[simp] theorem convert_variant (value : Value) : value.convert .variant = .ok value := rfl

theorem convert_kind (value : Value) : value.convert value.kind = .ok value := by
  cases value <;> rfl

@[simp] theorem convert_empty (kind : Kind) : Value.empty.convert kind = .ok kind.emptyValue := by
  cases kind <;> rfl

theorem kind_of_convert_definite (definite : kind ≠ .variant) (reached : value.convert kind = .ok result) :
    result.kind = kind := by
  cases kind with
  | boolean => obtain ⟨_, _, rfl⟩ := map_eq_ok reached; rfl
  | int32 => obtain ⟨_, _, rfl⟩ := map_eq_ok reached; rfl
  | double => obtain ⟨_, _, rfl⟩ := map_eq_ok reached; rfl
  | decimal => obtain ⟨_, _, rfl⟩ := map_eq_ok reached; rfl
  | string => cases reached; rfl
  | dateTime => obtain ⟨_, _, rfl⟩ := map_eq_ok reached; rfl
  | variant => exact absurd rfl definite

theorem kind_of_convert (reached : value.convert kind = .ok result) : kind = .variant ∨ result.kind = kind := by
  by_cases indefinite : kind = .variant
  · exact .inl indefinite
  · exact .inr (kind_of_convert_definite indefinite reached)

/-- Conversion to a kind that the value already keeps to only fills in for nothing. -/
theorem convert_promised (promised : kind = .variant ∨ value.kind = kind ∨ value = .empty) :
    value.convert kind = .ok (kind.filled value) := by
  by_cases nothing : value = .empty
  · subst nothing
    exact convert_empty kind
  · have kept : kind.filled value = value := by
      cases value with
      | empty => exact absurd rfl nothing
      | _ => rfl
    rw [kept]
    rcases promised with rfl | rfl | rfl
    · exact convert_variant value
    · exact convert_kind value
    · exact absurd rfl nothing

end Value

end ReportEngine
