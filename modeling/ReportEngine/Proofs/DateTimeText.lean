import ReportEngine.DateTime.Text

/-! Date-times are read back as they are written. Every part has a width of its own, so it is read off whatever
follows it; only a year outside four digits is ended by what stands behind it. A text shows a leap second only at the
end of a minute, so one anywhere else comes back as the second it is written as. -/

namespace ReportEngine.DateTime

open Text

section Parts

variable {width n : Nat}

private theorem head?_padded_append (wide : 0 < width) (fits : n < tenTo width) (rest : List Char) :
    ∀ c, (padded width n ++ rest).head? = some c → c.isDigit = true := by
  intro c first
  have nonempty : padded width n ≠ [] := by
    rw [← List.length_pos_iff, length_padded wide fits]
    exact wide
  obtain ⟨digit, digits, written⟩ := List.exists_cons_of_ne_nil nonempty
  rw [written] at first
  cases first
  exact isDigit_of_mem_padded (written ▸ List.mem_cons_self)

theorem readNumber?_padded (wide : 0 < width) (fits : n < tenTo width) (rest : List Char) :
    readNumber? width (padded width n ++ rest) = some (n, rest) := by
  have size := length_padded wide fits
  have digits : ((padded width n ++ rest).takeWhile Char.isDigit).take width = padded width n := by
    rw [List.takeWhile_append_of_pos fun _ member => isDigit_of_mem_padded member, List.take_left' size]
  have untrimmed : trimStart (padded width n ++ rest) = padded width n ++ rest :=
    trimStart_of_head? fun c first => isBlank_of_isDigit (head?_padded_append wide fits rest c first)
  have nonempty : (padded width n).isEmpty = false := by
    rw [List.isEmpty_eq_false_iff, ← List.length_pos_iff, size]
    exact wide
  simp [readNumber?, untrimmed, digits, nonempty, natOfDigits_padded]

/-- Four digits, or a sign and digits up to whatever is none. -/
theorem readYear?_yearText (year : Int) {rest : List Char} (stops : ∀ c, rest.head? = some c → c.isDigit = false) :
    readYear? (yearText year ++ rest) = some (year, rest) := by
  unfold yearText
  split
  next within =>
    have fits : year.natAbs < tenTo 4 := show year.natAbs < 10000 by omega
    have starts := head?_padded_append (by decide) fits rest
    have untrimmed : trimStart (padded 4 year.natAbs ++ rest) = padded 4 year.natAbs ++ rest :=
      trimStart_of_head? fun c first => isBlank_of_isDigit (starts c first)
    have whole : (year.natAbs : Int) = year := by omega
    rw [readYear?, untrimmed]
    split
    next same => cases starts '-' (by rw [same]; rfl)
    next same => cases starts '+' (by rw [same]; rfl)
    next => simp only [readNumber?_padded (by decide) fits, Option.map_some, whole]
  next beyond =>
    have digits : ∀ c ∈ padded 4 year.natAbs, c.isDigit = true := fun _ member => isDigit_of_mem_padded member
    obtain ⟨taken, left⟩ := span_append digits stops
    have nonempty : (padded 4 year.natAbs).isEmpty = false := by
      rw [List.isEmpty_eq_false_iff, padded]
      exact List.append_ne_nil_of_right_ne_nil _ (digitsOfNat_ne_nil _)
    have parts : spanDigits (padded 4 year.natAbs ++ rest) = (padded 4 year.natAbs, rest) := by
      rw [spanDigits, taken, left]
    split
    next negative =>
      have signed : -(year.natAbs : Int) = year := by omega
      have untrimmed : trimStart ('-' :: padded 4 year.natAbs ++ rest) = '-' :: (padded 4 year.natAbs ++ rest) := rfl
      simp only [readYear?, untrimmed, parts, nonempty, natOfDigits_padded, Bool.false_eq_true, if_false, Option.map_some,
        signed]
    next positive =>
      have unsigned : (year.natAbs : Int) = year := by omega
      have untrimmed : trimStart ('+' :: padded 4 year.natAbs ++ rest) = '+' :: (padded 4 year.natAbs ++ rest) := rfl
      simp only [readYear?, untrimmed, parts, nonempty, natOfDigits_padded, Bool.false_eq_true, if_false, Option.map_some,
        unsigned]

private theorem readFraction?_padded (wide : 0 < width) (narrow : width ≤ 9) (fits : n < tenTo width) :
    readFraction? ('.' :: padded width n) = some (n * tenTo (9 - width)) := by
  have size := length_padded wide fits
  have digits : (padded width n).all Char.isDigit = true :=
    List.all_eq_true.mpr fun _ member => isDigit_of_mem_padded member
  have nonempty : (padded width n).isEmpty = false := by
    rw [List.isEmpty_eq_false_iff, ← List.length_pos_iff, size]
    exact wide
  have whole : (padded width n).take 9 = padded width n := List.take_of_length_le (by omega)
  simp [readFraction?, digits, nonempty, whole, size, natOfDigits_padded]

theorem readFraction?_fractionText (fits : n < 1000000000) : readFraction? (fractionText n) = some n := by
  unfold fractionText
  split
  next none =>
    rw [none]
    rfl
  next =>
    split
    next thousandths =>
      rw [readFraction?_padded (by decide) (by decide) (show n / 1000000 < 1000 by omega)]
      exact congrArg some (Nat.div_mul_cancel (Nat.dvd_of_mod_eq_zero thousandths))
    next =>
      split
      next millionths =>
        rw [readFraction?_padded (by decide) (by decide) (show n / 1000 < 1000000 by omega)]
        exact congrArg some (Nat.div_mul_cancel (Nat.dvd_of_mod_eq_zero millionths))
      next =>
        rw [readFraction?_padded (by decide) (by decide) fits]
        exact congrArg some (Nat.mul_one n)

end Parts

theorem daysInMonth_le (year : Int) (month : Nat) : daysInMonth year month ≤ 31 := by
  unfold daysInMonth
  repeat' split
  all_goals decide

theorem bounds (t : DateTime) : t.month ≤ 12 ∧ t.day ≤ 31 ∧ t.hour < 24 ∧ t.minute < 60 ∧ t.second < 60 ∧
    t.nanosecond < 2 * nanosPerSecond := by
  have valid := t.valid
  simp only [isValid, Bool.and_eq_true, decide_eq_true_eq] at valid
  obtain ⟨⟨⟨⟨⟨⟨⟨⟨⟨-, -⟩, -⟩, month⟩, -⟩, day⟩, hour⟩, minute⟩, second⟩, nanosecond⟩ := valid
  exact ⟨month, Nat.le_trans day (daysInMonth_le t.year t.month), hour, minute, second, nanosecond⟩

theorem of?_eq (t : DateTime) : of? t.year t.month t.day t.hour t.minute t.second t.nanosecond = some t := dif_pos t.valid

/-- A clock shows any moment but a leap second in the middle of a minute. -/
def IsShown (t : DateTime) : Prop := t.nanosecond < nanosPerSecond ∨ t.second = 59

instance (t : DateTime) : Decidable t.IsShown := inferInstanceAs (Decidable (_ ∨ _))

theorem isValid_next {t : DateTime} (hidden : ¬ t.IsShown) :
    isValid t.year t.month t.day t.hour t.minute (t.second + 1) (t.nanosecond - nanosPerSecond) = true := by
  obtain ⟨-, -, -, -, second, nanosecond⟩ := t.bounds
  have valid := t.valid
  simp only [IsShown, not_or, Nat.not_lt] at hidden
  simp only [isValid, Bool.and_eq_true, decide_eq_true_eq] at valid ⊢
  exact ⟨⟨valid.1.1, by omega⟩, by omega⟩

/-- What a date-time is written as: a leap second that no clock shows as the second after its own. -/
def asWritten (t : DateTime) : DateTime :=
  if shown : t.IsShown then t
  else ⟨t.year, t.month, t.day, t.hour, t.minute, t.second + 1, t.nanosecond - nanosPerSecond, isValid_next shown⟩

theorem asWritten_eq_iff (t : DateTime) : t.asWritten = t ↔ t.IsShown := by
  unfold asWritten
  split
  next shown => exact ⟨fun _ => shown, fun _ => rfl⟩
  next hidden =>
    constructor
    · intro same
      have later : t.second + 1 = t.second := congrArg second same
      omega
    · intro shown
      exact absurd shown hidden

theorem leap_parts {t : DateTime} (leap : nanosPerSecond ≤ t.nanosecond) :
    t.nanosecond / nanosPerSecond = 1 ∧ t.nanosecond % nanosPerSecond = t.nanosecond - nanosPerSecond := by
  obtain ⟨-, -, -, -, -, nanosecond⟩ := t.bounds
  refine ⟨Nat.div_eq_of_lt_le (by omega) (by omega), ?_⟩
  rw [Nat.mod_eq_sub_mod leap, Nat.mod_eq_of_lt (by omega)]

private theorem ofClock?_asWritten (t : DateTime) :
    ofClock? t.year t.month t.day t.hour t.minute (t.second + t.nanosecond / nanosPerSecond) (t.nanosecond % nanosPerSecond) =
      some t.asWritten := by
  obtain ⟨-, -, -, -, second, nanosecond⟩ := t.bounds
  have fraction : t.nanosecond % nanosPerSecond < nanosPerSecond := Nat.mod_lt _ (by decide)
  rw [ofClock?, if_neg (Nat.not_le.mpr fraction)]
  by_cases ordinary : t.nanosecond < nanosPerSecond
  · have plain : t.asWritten = t := t.asWritten_eq_iff.mpr (.inl ordinary)
    rw [Nat.div_eq_of_lt ordinary, Nat.mod_eq_of_lt ordinary, Nat.add_zero, if_neg (by omega), plain, of?_eq]
  · obtain ⟨one, rest⟩ := leap_parts (Nat.le_of_not_lt ordinary)
    rw [one, rest]
    by_cases last : t.second = 59
    · have whole : nanosPerSecond + (t.nanosecond - nanosPerSecond) = t.nanosecond := by omega
      have plain : t.asWritten = t := t.asWritten_eq_iff.mpr (.inr last)
      rw [if_pos (by omega), whole, plain, ← last, of?_eq]
    · have hidden : ¬ t.IsShown := not_or.mpr ⟨ordinary, last⟩
      rw [if_neg (by omega), asWritten, dif_neg hidden, of?, dif_pos (isValid_next hidden)]

theorem read?_toText (t : DateTime) : read? t.toText = some t.asWritten := by
  obtain ⟨month, day, hour, minute, second, nanosecond⟩ := t.bounds
  have two : ∀ {n : Nat} (rest : List Char), n < 100 → readNumber? 2 (padded 2 n ++ rest) = some (n, rest) :=
    fun rest fits => readNumber?_padded (by decide) fits rest
  have year : ∀ rest : List Char, readYear? (yearText t.year ++ '-' :: rest) = some (t.year, '-' :: rest) :=
    fun rest => readYear?_yearText t.year fun c first => by cases first; rfl
  have shown : t.second + t.nanosecond / nanosPerSecond < 100 := by
    have leap : t.nanosecond / nanosPerSecond < 2 := Nat.div_lt_of_lt_mul (Nat.mul_comm .. ▸ nanosecond)
    omega
  have fraction : readFraction? (fractionText (t.nanosecond % nanosPerSecond)) = some (t.nanosecond % nanosPerSecond) :=
    readFraction?_fractionText (Nat.mod_lt _ (by decide))
  simp [read?, toText, year, skip?, two _ (show t.month < 100 by omega), two _ (show t.day < 100 by omega), readTime?,
    two _ (show t.hour < 100 by omega), two _ (show t.minute < 100 by omega), two _ shown, fraction, ofClock?_asWritten]

theorem toText_asWritten (t : DateTime) : t.asWritten.toText = t.toText := by
  obtain ⟨-, -, -, -, -, nanosecond⟩ := t.bounds
  unfold asWritten
  split
  next => rfl
  next hidden =>
    have leap : nanosPerSecond ≤ t.nanosecond := Nat.le_of_not_lt fun early => hidden (.inl early)
    have within : t.nanosecond - nanosPerSecond < nanosPerSecond := by omega
    obtain ⟨one, rest⟩ := leap_parts leap
    simp only [toText, one, rest, Nat.div_eq_of_lt within, Nat.mod_eq_of_lt within, Nat.add_zero]

example : asWritten ⟨2015, 6, 30, 23, 56, 4, 1333333333, by decide⟩ = ⟨2015, 6, 30, 23, 56, 5, 333333333, by decide⟩ := by
  decide

private theorem isShown_of_ofClock? {year : Int} {month day hour minute second nanosecond : Nat} {t : DateTime}
    (shown : ofClock? year month day hour minute second nanosecond = some t) : t.IsShown := by
  unfold ofClock? of? at shown
  split at shown
  next => cases shown
  next fraction =>
    split at shown
    next =>
      split at shown <;> cases shown
      exact .inr rfl
    next =>
      split at shown <;> cases shown
      exact .inl (Nat.lt_of_not_le fraction)

/-- Texts spell the date-times that a clock shows, and no other. -/
theorem exists_read?_iff (t : DateTime) : (∃ text, read? text = some t) ↔ t.IsShown := by
  constructor
  · rintro ⟨text, spelled⟩
    simp only [read?, Option.bind_eq_bind, Option.bind_eq_some_iff] at spelled
    obtain ⟨_, -, _, -, _, -, _, -, _, -, clock⟩ := spelled
    split at clock
    next => exact isShown_of_ofClock? clock
    next =>
      obtain ⟨_, -, shown⟩ := Option.bind_eq_some_iff.mp clock
      exact isShown_of_ofClock? shown
    next =>
      obtain ⟨_, -, shown⟩ := Option.bind_eq_some_iff.mp clock
      exact isShown_of_ofClock? shown
  · intro shown
    refine ⟨t.toText, ?_⟩
    rw [read?_toText, t.asWritten_eq_iff.mpr shown]

private theorem noBlank_padded (width n : Nat) : NoBlank (padded width n) :=
  .of_digits fun _ member => isDigit_of_mem_padded member

private theorem noBlank_yearText (year : Int) : NoBlank (yearText year) := by
  unfold yearText
  split
  next => exact noBlank_padded 4 _
  next =>
    refine .cons ?_ (noBlank_padded 4 _)
    split <;> rfl

private theorem noBlank_fractionText (nanosecond : Nat) : NoBlank (fractionText nanosecond) := by
  unfold fractionText
  repeat' split
  · nofun
  all_goals exact .cons rfl (noBlank_padded _ _)

theorem noBlank_toText (t : DateTime) : NoBlank t.toText := by
  have part : ∀ {mark : Char} (n : Nat), isBlank mark = false → NoBlank (mark :: padded 2 n) :=
    fun n plain => .cons plain (noBlank_padded 2 n)
  have date : NoBlank (yearText t.year ++ '-' :: padded 2 t.month ++ '-' :: padded 2 t.day) :=
    .append (.append (noBlank_yearText t.year) (part _ rfl)) (part _ rfl)
  exact .append (.append (.append (.append date (part _ rfl)) (part _ rfl)) (part _ rfl)) (noBlank_fractionText _)

end ReportEngine.DateTime
