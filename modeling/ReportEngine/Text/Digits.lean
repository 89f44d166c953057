import ReportEngine.Power

/-! Runs of decimal digits: splitting them off a text, reading and writing numbers. -/

namespace ReportEngine.Text

/-- Splits a text after its longest run of decimal digits. -/
def spanDigits (text : List Char) : List Char × List Char :=
  (text.takeWhile Char.isDigit, text.dropWhile Char.isDigit)

def natOfDigits (digits : List Char) : Nat := Nat.ofDigitChars 10 digits 0

def digitsOfNat (n : Nat) : List Char := Nat.toDigits 10 n

/-- The digits of a number, with leading zeros up to a width. -/
def padded (width n : Nat) : List Char :=
  List.replicate (width - (digitsOfNat n).length) '0' ++ digitsOfNat n

def digitsOfInt : Int → List Char
  | .ofNat n => digitsOfNat n
  | .negSucc n => '-' :: digitsOfNat (n + 1)

def spanSign : List Char → Bool × List Char
  | '-' :: rest => (true, rest)
  | '+' :: rest => (false, rest)
  | text => (false, text)

/-- Reads an optional sign and one or more digits, up to the end of the text. -/
def readInt? (text : List Char) : Option Int :=
  let (negative, digits) := spanSign text
  if digits.isEmpty || !digits.all Char.isDigit then none
  else if negative then some (-(natOfDigits digits : Int)) else some (natOfDigits digits)

theorem natOfDigits_digitsOfNat (n : Nat) : natOfDigits (digitsOfNat n) = n :=
  Nat.ofDigitChars_ten_toDigits

theorem isDigit_of_mem_digitsOfNat {n : Nat} {c : Char} (member : c ∈ digitsOfNat n) :
    c.isDigit = true :=
  Nat.isDigit_of_mem_toDigits (by decide) (by decide) member

theorem digitsOfNat_ne_nil (n : Nat) : digitsOfNat n ≠ [] := Nat.toDigits_ne_nil

theorem lt_pow_length_digitsOfNat (n : Nat) : n < tenTo (digitsOfNat n).length :=
  (Nat.length_toDigits_le_iff (by decide) Nat.length_toDigits_pos).mp (Nat.le_refl _)

theorem pow_length_digitsOfNat_le {n : Nat} (positive : 0 < n) : tenTo ((digitsOfNat n).length - 1) ≤ n := by
  by_cases single : (digitsOfNat n).length - 1 = 0
  · rw [single]
    exact positive
  · refine Nat.le_of_not_lt fun below => ?_
    have shorter : (digitsOfNat n).length ≤ (digitsOfNat n).length - 1 :=
      (Nat.length_toDigits_le_iff (by decide) (Nat.pos_of_ne_zero single)).mpr below
    omega

theorem length_padded {width n : Nat} (wide : 0 < width) (fits : n < tenTo width) : (padded width n).length = width := by
  have short : (digitsOfNat n).length ≤ width := (Nat.length_toDigits_le_iff (by decide) wide).mpr fits
  rw [padded, List.length_append, List.length_replicate]
  omega

theorem natOfDigits_append_zeros (digits : List Char) (zeros : Nat) :
    natOfDigits (digits ++ List.replicate zeros '0') = natOfDigits digits * tenTo zeros := by
  rw [natOfDigits, Nat.ofDigitChars_append, Nat.ofDigitChars_replicate_zero, Nat.mul_comm, natOfDigits]
  rfl

theorem natOfDigits_padded (width n : Nat) : natOfDigits (padded width n) = n := by
  rw [natOfDigits, padded, Nat.ofDigitChars_append, Nat.ofDigitChars_replicate_zero, Nat.mul_zero]
  exact natOfDigits_digitsOfNat n

theorem isDigit_of_mem_padded {width n : Nat} {c : Char} (member : c ∈ padded width n) : c.isDigit = true := by
  rcases List.mem_append.mp member with zero | digit
  · rw [List.eq_of_mem_replicate zero]
    rfl
  · exact isDigit_of_mem_digitsOfNat digit

/-- A run that the rest does not go on with is split off whole. -/
theorem span_append {keep : Char → Bool} {front rest : List Char} (inside : ∀ c ∈ front, keep c = true)
    (stops : ∀ c, rest.head? = some c → keep c = false) :
    (front ++ rest).takeWhile keep = front ∧ (front ++ rest).dropWhile keep = rest := by
  have ends : rest.takeWhile keep = [] ∧ rest.dropWhile keep = rest := by
    cases rest with
    | nil => exact ⟨rfl, rfl⟩
    | cons c rest => simp [stops c rfl]
  rw [List.takeWhile_append_of_pos inside, List.dropWhile_append_of_pos inside, ends.1, ends.2, List.append_nil]
  exact ⟨rfl, rfl⟩

/-- A text that begins with a digit has no sign. -/
theorem spanSign_of_isDigit {text : List Char} (digits : ∀ c, text.head? = some c → c.isDigit = true) :
    spanSign text = (false, text) := by
  unfold spanSign
  split
  next => cases digits '-' rfl
  next => cases digits '+' rfl
  next => rfl

theorem digitsOfInt_eq (n : Int) : digitsOfInt n = (if n < 0 then ['-'] else []) ++ digitsOfNat n.natAbs := by
  cases n with
  | ofNat n => rfl
  | negSucc n => rw [if_pos (Int.negSucc_lt_zero n)]; rfl

theorem readInt?_signed (negative : Bool) (n : Nat) :
    readInt? ((if negative then ['-'] else ['+']) ++ digitsOfNat n) = some (if negative then -(n : Int) else n) := by
  have digits : (digitsOfNat n).all Char.isDigit = true :=
    List.all_eq_true.mpr fun c member => isDigit_of_mem_digitsOfNat member
  have nonempty : (digitsOfNat n).isEmpty = false := List.isEmpty_eq_false_iff.mpr (digitsOfNat_ne_nil n)
  cases negative <;> simp [readInt?, spanSign, digits, nonempty, natOfDigits_digitsOfNat]

theorem readInt?_digitsOfNat (n : Nat) : readInt? (digitsOfNat n) = some n := by
  have digits : (digitsOfNat n).all Char.isDigit = true :=
    List.all_eq_true.mpr fun c member => isDigit_of_mem_digitsOfNat member
  have nonempty : (digitsOfNat n).isEmpty = false := List.isEmpty_eq_false_iff.mpr (digitsOfNat_ne_nil n)
  have unsigned : spanSign (digitsOfNat n) = (false, digitsOfNat n) :=
    spanSign_of_isDigit fun c first => isDigit_of_mem_digitsOfNat (List.mem_of_head? first)
  simp [readInt?, unsigned, digits, nonempty, natOfDigits_digitsOfNat]

theorem readInt?_digitsOfInt : ∀ n : Int, readInt? (digitsOfInt n) = some n
  | .ofNat n => readInt?_digitsOfNat n
  | .negSucc n => readInt?_signed true (n + 1)

/-- Only zero is written with a zero in front. -/
theorem eq_zero_of_head?_digitsOfNat {n : Nat} (zero : (digitsOfNat n).head? = some '0') : n = 0 := by
  induction n using Nat.strongRecOn with
  | ind n ih =>
    unfold digitsOfNat at zero ih
    rw [Nat.toDigits_eq_if (by decide)] at zero
    split at zero
    next => exact Nat.digitChar_eq_zero.mp (Option.some.inj zero)
    next large =>
      have first : (Nat.toDigits 10 (n / 10)).head?.isSome := by simp
      rw [List.head?_append, Option.or_of_isSome first] at zero
      have none := ih (n / 10) (by omega) zero
      omega

end ReportEngine.Text
