import ReportEngine.Proofs.Conversion
import ReportEngine.Proofs.DateTimeText
import ReportEngine.Proofs.DecimalText
import ReportEngine.Proofs.ExactDecimals

/-! Text carries values. What a value is written as holds no blanks that trimming could take, and is read back as
the value; of a decimal the size comes back, though not always the scale. Of date-times text represents those that a
clock shows. A leap second in the middle of a minute is not one of them: no text is read as it. -/

namespace ReportEngine

open Text

namespace Decimal

theorem toRat_asWritten (d : Decimal) : d.asWritten.toRat = d.toRat := by
  unfold asWritten
  split
  next nothing =>
    rw [toRat_zero (eq_of_beq nothing)]
    exact toRat_zero rfl
  next =>
    split
    next => rfl
    next => exact toRat_atLeastScale d 0

end Decimal

namespace Value

/-- The same value, up to the scale of a decimal. -/
inductive SameSize : Value → Value → Prop where
  | refl (value : Value) : SameSize value value
  | decimal {a b : Decimal} (size : a.toRat = b.toRat) : SameSize (decimal a) (decimal b)

private theorem trim_display {value : Value} (plain : NoBlank value.chars) : trim value.display.toList = value.chars := by
  rw [display, String.toList_ofList, plain.trim_eq]

private theorem read_int32 (n : Int32) : (string (int32 n).display).convert .int32 = .ok (int32 n) := by
  have trimmed : trim (int32 n).display.toList = digitsOfInt n.toInt := trim_display (.digitsOfInt n.toInt)
  rw [convert, toInt32, trimmed, readInt?_digitsOfInt, Option.bind_some, Int32.ofInt?_toInt]
  rfl

private theorem read_decimal (d : Decimal) (fits : Decimal.fits64 d.scale = true) :
    (string (decimal d).display).convert .decimal = .ok (decimal d.asWritten) := by
  have trimmed : trim (decimal d).display.toList = d.toText := trim_display d.noBlank_toText
  rw [convert, toDecimal, trimmed, d.read?_toText fits]
  rfl

private theorem read_dateTime (t : DateTime) :
    (string (dateTime t).display).convert .dateTime = .ok (dateTime t.asWritten) := by
  have trimmed : trim (dateTime t).display.toList = t.toText := trim_display t.noBlank_toText
  rw [convert, toDateTime, trimmed, t.read?_toText]
  rfl

private theorem read_boolean (b : Bool) : (string (boolean b).display).convert .boolean = .ok (boolean b) := by
  cases b <;> rfl

/-- The date-times that text converts to are the ones that come back from their own text. -/
private theorem exists_convert_iff (t : DateTime) :
    (∃ text, (string text).convert .dateTime = .ok (dateTime t)) ↔ t.asWritten = t := by
  rw [t.asWritten_eq_iff, ← t.exists_read?_iff]
  constructor
  · rintro ⟨text, read⟩
    obtain ⟨u, found, same⟩ := map_eq_ok read
    cases same
    refine ⟨trim text.toList, ?_⟩
    cases spelled : DateTime.read? (trim text.toList) with
    | none => simp only [toDateTime, spelled, orIncompatible, reduceCtorEq] at found
    | some other =>
      simp only [toDateTime, spelled, orIncompatible] at found
      exact congrArg some (Except.ok.inj found)
  · intro spelled
    have plain := t.asWritten_eq_iff.mpr (t.exists_read?_iff.mp spelled)
    have own := read_dateTime t
    rw [plain] at own
    exact ⟨_, own⟩

private theorem sameSize_dateTime {t u : DateTime} : SameSize (dateTime t) (dateTime u) ↔ u = t := by
  constructor
  · intro same
    cases same
    rfl
  · rintro rfl
    exact .refl _

private theorem carried_text {value : Value} (carried : value.kind ≠ .variant ∧ value.kind ≠ .double)
    (word : ∀ d, value = decimal d → Decimal.fits64 d.scale = true) (timeless : value.kind ≠ .dateTime) :
    ∃ text back, value.convert .string = .ok (string text) ∧ (string text).convert value.kind = .ok back ∧
      SameSize value back := by
  cases value with
  | empty => exact absurd rfl carried.1
  | boolean b => exact ⟨_, _, rfl, read_boolean b, .refl _⟩
  | int32 n => exact ⟨_, _, rfl, read_int32 n, .refl _⟩
  | double d => exact absurd rfl carried.2
  | decimal d => exact ⟨_, _, rfl, read_decimal d (word d rfl), .decimal d.toRat_asWritten.symm⟩
  | string text => exact ⟨_, _, rfl, rfl, .refl _⟩
  | dateTime t => exact absurd rfl timeless

end Value

end ReportEngine
