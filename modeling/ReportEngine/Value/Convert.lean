import ReportEngine.Error
import ReportEngine.Text.Blank
import ReportEngine.Value.Basic

/-! The conversion table, the only coercions there are. Numbers convert among each other, everything
converts to text, text converts to what it spells once blanks around it are trimmed, and the empty
value converts to the zero of every kind. -/

namespace ReportEngine

/-- The 32-bit integer equal to a number, if it is in range. -/
def Int32.ofInt? (n : Int) : Option Int32 :=
  if -0x80000000 ≤ n ∧ n < 0x80000000 then some (Int32.ofInt n) else none

theorem Int32.ofInt?_toInt (n : Int32) : Int32.ofInt? n.toInt = some n := by
  have lower := n.le_toInt
  have upper := n.toInt_lt
  rw [Int32.ofInt?, if_pos (by omega), Int32.ofInt_toInt]

namespace Value

open Text

def incompatible (value : Value) (target : Kind) : ExprError :=
  .conversion (some value.display) value.kind target

def orIncompatible {α : Type} (value : Value) (target : Kind) : Option α → Except ExprError α
  | some result => .ok result
  | none => .error (incompatible value target)

def toBoolean (value : Value) : Except ExprError Bool :=
  match value with
  | empty => .ok false
  | boolean b => .ok b
  | int32 n => .ok (n != 0)
  | double d => .ok (!d.isZero)
  | decimal d => .ok (!d.isZero)
  | string text =>
    let word := trim text.toList
    if eqIgnoringCase word "true".toList then .ok true
    else if eqIgnoringCase word "false".toList then .ok false
    else .error (incompatible value .boolean)
  | dateTime _ => .error (incompatible value .boolean)

/-- Numbers are rounded to the nearest integer, a half to the even one. A decimal whose order of
magnitude alone puts it out of range is reported with an exponent, its digits never expanded. -/
def toInt32 (value : Value) : Except ExprError Int32 :=
  match value with
  | empty => .ok 0
  | boolean b => .ok (if b then 1 else 0)
  | int32 n => .ok n
  | double d => orIncompatible value .int32 (d.round?.bind Int32.ofInt?)
  | decimal d =>
    if d.isZero || d.magnitude < 0 then .ok 0
    else if d.magnitude > 10 then
      .error (.conversion (d.toExponentText?.map String.ofList) .decimal .int32)
    else orIncompatible value .int32 (Int32.ofInt? d.round)
  | string text => orIncompatible value .int32 ((readInt? (trim text.toList)).bind Int32.ofInt?)
  | dateTime _ => .error (incompatible value .int32)

/-- Besides numbers, three words are read as doubles. No other letters than an exponent's are. -/
def readDouble? (text : List Char) : Option Double :=
  if text = "Infinity".toList then some (.infinite false)
  else if text = "-Infinity".toList then some (.infinite true)
  else if text = "NaN".toList then some .nan
  else Double.read? text

def toDouble (value : Value) : Except ExprError Double :=
  match value with
  | empty => .ok .zero
  | boolean b => .ok (if b then .ofInt 1 else .zero)
  | int32 n => .ok (.ofInt n.toInt)
  | double d => .ok d
  | decimal d => .ok d.toDouble
  | string text => orIncompatible value .double (readDouble? (trim text.toList))
  | dateTime _ => .error (incompatible value .double)

/-- A double converts through its shortest digits, not through its exact binary expansion. -/
def toDecimal (value : Value) : Except ExprError Decimal :=
  match value with
  | empty => .ok .zero
  | boolean b => .ok (.ofInt (if b then 1 else 0))
  | int32 n => .ok (.ofInt n.toInt)
  | double d => orIncompatible value .decimal (Decimal.ofDouble? d)
  | decimal d => .ok d
  | string text => orIncompatible value .decimal (Decimal.read? (trim text.toList))
  | dateTime _ => .error (incompatible value .decimal)

def toText (value : Value) : String :=
  match value with
  | string text => text
  | other => other.display

def toDateTime (value : Value) : Except ExprError DateTime :=
  match value with
  | empty => .ok .first
  | dateTime t => .ok t
  | string text => orIncompatible value .dateTime (DateTime.read? (trim text.toList))
  | _ => .error (incompatible value .dateTime)

/-- The value as one of the given kind. Every value is one of kind `variant`. -/
def convert (value : Value) : Kind → Except ExprError Value
  | .boolean => value.toBoolean.map boolean
  | .int32 => value.toInt32.map int32
  | .double => value.toDouble.map double
  | .decimal => value.toDecimal.map decimal
  | .string => .ok (string value.toText)
  | .dateTime => value.toDateTime.map dateTime
  | .variant => .ok value

section Errors

variable {value : Value} {error : ExprError}

private theorem orIncompatible_error {α : Type} {target : Kind} {found : Option α}
    (failed : orIncompatible value target found = .error error) : error = incompatible value target := by
  cases found with
  | none => cases failed; rfl
  | some _ => cases failed

theorem toBoolean_error (failed : value.toBoolean = .error error) :
    ∃ text, error = .conversion (some text) value.kind .boolean := by
  cases value with
  | string text =>
    simp only [toBoolean] at failed
    split at failed
    · cases failed
    · split at failed <;> cases failed
      exact ⟨_, rfl⟩
  | dateTime _ => cases failed; exact ⟨_, rfl⟩
  | empty | boolean _ | int32 _ | double _ | decimal _ => cases failed

private theorem toInt32_error (failed : value.toInt32 = .error error) :
    ∃ text, error = .conversion text value.kind .int32 ∧ (text = none → value.kind = .decimal) := by
  cases value with
  | decimal d =>
    simp only [toInt32] at failed
    split at failed
    · cases failed
    · split at failed
      · cases failed; exact ⟨_, rfl, fun _ => rfl⟩
      · exact ⟨_, orIncompatible_error failed, fun _ => rfl⟩
  | double _ | string _ => exact ⟨_, orIncompatible_error failed, nofun⟩
  | dateTime _ => cases failed; exact ⟨_, rfl, nofun⟩
  | empty | boolean _ | int32 _ => cases failed

private theorem toDouble_error (failed : value.toDouble = .error error) :
    ∃ text, error = .conversion (some text) value.kind .double := by
  cases value with
  | string _ => exact ⟨_, orIncompatible_error failed⟩
  | dateTime _ => cases failed; exact ⟨_, rfl⟩
  | empty | boolean _ | int32 _ | double _ | decimal _ => cases failed

private theorem toDecimal_error (failed : value.toDecimal = .error error) :
    ∃ text, error = .conversion (some text) value.kind .decimal := by
  cases value with
  | double _ | string _ => exact ⟨_, orIncompatible_error failed⟩
  | dateTime _ => cases failed; exact ⟨_, rfl⟩
  | empty | boolean _ | int32 _ | decimal _ => cases failed

private theorem toDateTime_error (failed : value.toDateTime = .error error) :
    ∃ text, error = .conversion (some text) value.kind .dateTime := by
  cases value with
  | string _ => exact ⟨_, orIncompatible_error failed⟩
  | boolean _ | int32 _ | double _ | decimal _ => cases failed; exact ⟨_, rfl⟩
  | empty | dateTime _ => cases failed

private theorem of_reported {source target : Kind} (reported : ∃ text, error = .conversion (some text) source target) :
    ∃ text, error = .conversion text source target ∧ (text = none → source = .decimal ∧ target = .int32) := by
  obtain ⟨text, same⟩ := reported
  exact ⟨some text, same, nofun⟩

/-- A conversion that fails names the kinds it was between. Only from decimals to integers the program may stop. -/
theorem convert_error {kind : Kind} (failed : value.convert kind = .error error) :
    ∃ text, error = .conversion text value.kind kind ∧ (text = none → value.kind = .decimal ∧ kind = .int32) := by
  cases kind with
  | boolean => exact of_reported (toBoolean_error (map_eq_error failed))
  | int32 =>
    obtain ⟨text, same, decimal⟩ := toInt32_error (map_eq_error failed)
    exact ⟨text, same, fun none => ⟨decimal none, rfl⟩⟩
  | double => exact of_reported (toDouble_error (map_eq_error failed))
  | decimal => exact of_reported (toDecimal_error (map_eq_error failed))
  | string => cases failed
  | dateTime => exact of_reported (toDateTime_error (map_eq_error failed))
  | variant => cases failed

end Errors

end Value

end ReportEngine
