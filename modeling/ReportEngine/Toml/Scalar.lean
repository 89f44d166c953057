import ReportEngine.DateTime.Basic
import ReportEngine.Double.Text
import ReportEngine.Power
import ReportEngine.Text.Hex
import ReportEngine.Toml.Basic

/-! Numbers, truth values, dates and quoted texts. -/

namespace ReportEngine.Toml

open Text

/-- Whether each underscore in a number stands between two characters that pass for digits. The first
character of the number may be any, so that one may follow a sign. -/
def isGrouped (isDigit : Char → Bool) (text : List Char) : Bool :=
  let parts := text.splitOn '_'
  (parts.tail.all fun part => part.head?.any isDigit) &&
    (parts.dropLast.all fun part => part.length == 1 || part.getLast?.any isDigit)

theorem isGrouped_of_not_mem {isDigit : Char → Bool} {text : List Char} (whole : '_' ∉ text) :
    isGrouped isDigit text = true := by
  simp [isGrouped, List.splitOn_eq_singleton whole]

private def isHexDigit (c : Char) : Bool := (hexDigit? c).isSome

private def ungroup (text : List Char) : List Char := text.filter (· != '_')

/-- An integer that 128 bits can hold, with or without a sign. -/
def ofInteger (n : Int) : Node := if -(twoTo 127) ≤ n ∧ n < twoTo 128 then .integer n else .badNumber

private def valueIn (base : Nat) (digits : List Char) : Nat :=
  digits.foldl (fun n c => n * base + (hexDigit? c).getD 0) 0

/-- Reads an integer from after the mark of its base. Without digits it denotes none. -/
private def readBase? (base : Nat) (text : List Char) : Option Node :=
  let digits := ungroup text
  if digits.all (fun c => (hexDigit? c).any (· < base)) && isGrouped isHexDigit text then
    some (if digits.isEmpty then .badNumber else ofInteger (valueIn base digits))
  else none

private def isExponentMark (c : Char) : Bool := c == 'e' || c == 'E'

/-- Whether digits begin with a zero that says nothing. -/
private def hasLeadingZero (digits : List Char) : Bool := digits.head? == some '0' && digits.length > 1

/-- Reads a decimal integer. What follows an underscore in it is taken for digits, but only digits
denote an integer. -/
private def readDecimal? (text : List Char) : Option Node :=
  let (negative, unsigned) := spanSign text
  let rest := unsigned.dropWhile Char.isDigit
  let digits := ungroup unsigned
  if unsigned.isEmpty || hasLeadingZero unsigned then none
  else if !(rest.isEmpty || rest.head? == some '_') then none
  else if rest.any (fun c => c == '.' || isExponentMark c) || !isGrouped isHexDigit text then none
  else if digits.all Char.isDigit then
    some (ofInteger (if negative then -(natOfDigits digits : Int) else natOfDigits digits))
  else some .badNumber

def readInteger? (text : List Char) : Option Node :=
  match text with
  | '0' :: 'x' :: digits => readBase? 16 digits
  | '0' :: 'o' :: digits => readBase? 8 digits
  | '0' :: 'b' :: digits => readBase? 2 digits
  | _ => readDecimal? text

private theorem hasLeadingZero_digitsOfNat (n : Nat) : hasLeadingZero (digitsOfNat n) = false := by
  by_cases zero : (digitsOfNat n).head? = some '0'
  · rw [eq_zero_of_head?_digitsOfNat zero]
    rfl
  · simp [hasLeadingZero, zero]

theorem readInteger?_digitsOfNat (n : Nat) : readInteger? (digitsOfNat n) = some (ofInteger n) := by
  have digit : ∀ c ∈ digitsOfNat n, c.isDigit = true := fun c member => isDigit_of_mem_digitsOfNat member
  have noMark {c : Char} (mark : c.isDigit = false) : c ∉ digitsOfNat n := by
    intro member
    rw [digit c member] at mark
    cases mark
  have decimal : readInteger? (digitsOfNat n) = readDecimal? (digitsOfNat n) := by
    unfold readInteger?
    split
    next written => exact absurd (by rw [written]; simp) (noMark (c := 'x') rfl)
    next written => exact absurd (by rw [written]; simp) (noMark (c := 'o') rfl)
    next written => exact absurd (by rw [written]; simp) (noMark (c := 'b') rfl)
    next => rfl
  have unsigned : spanSign (digitsOfNat n) = (false, digitsOfNat n) :=
    spanSign_of_isDigit fun c first => digit c (List.mem_of_head? first)
  have whole : ungroup (digitsOfNat n) = digitsOfNat n := by
    refine List.filter_eq_self.mpr fun c member => bne_iff_ne.mpr ?_
    rintro rfl
    exact noMark rfl member
  have ends : (digitsOfNat n).dropWhile Char.isDigit = [] := by
    rw [← List.append_nil (digitsOfNat n), List.dropWhile_append_of_pos digit, List.dropWhile_nil]
  rw [decimal, readDecimal?, unsigned]
  simp [whole, ends, hasLeadingZero_digitsOfNat, digitsOfNat_ne_nil, isGrouped_of_not_mem (noMark rfl),
    List.all_eq_true.mpr digit, natOfDigits_digitsOfNat]

/-- Whether a text is a run of digits, perhaps with underscores. -/
private def isDigits (text : List Char) : Bool :=
  text.any Char.isDigit && (ungroup text).all Char.isDigit

/-- Whether a text is spelled as digits with a fraction, an exponent or both. -/
private def isFraction (unsigned : List Char) : Bool :=
  let mantissa := unsigned.takeWhile (!isExponentMark ·)
  let exponent := unsigned.dropWhile (!isExponentMark ·)
  let whole := mantissa.takeWhile (· != '.')
  let fraction := mantissa.dropWhile (· != '.')
  isDigits whole && !(whole.head? == some '0' && (ungroup whole).length > 1) &&
    (fraction.isEmpty || isDigits (fraction.drop 1)) &&
    (exponent.isEmpty || isDigits (spanSign (exponent.drop 1)).2) &&
    !(fraction.isEmpty && exponent.isEmpty)

/-- Reads a float, of which only `inf` may stand for an infinity. -/
def readFloat? (text : List Char) : Option Node :=
  let (_, unsigned) := spanSign text
  if unsigned = "inf".toList ∨ unsigned = "nan".toList then some .float
  else if isFraction unsigned && isGrouped Char.isDigit text then
    some (if (Double.read? (ungroup text)).any Double.isFinite then .float else .badNumber)
  else none

private def readDigits? (count : Nat) (text : List Char) : Option (Nat × List Char) :=
  let digits := text.take count
  if digits.length = count ∧ digits.all Char.isDigit then some (natOfDigits digits, text.drop count)
  else none

private def skip? (expected : Char) : List Char → Option (List Char)
  | [] => none
  | c :: rest => if c == expected then some rest else none

def readDate? (text : List Char) : Option (List Char) := do
  let (year, rest) ← readDigits? 4 text
  let (month, rest) ← readDigits? 2 (← skip? '-' rest)
  let (day, rest) ← readDigits? 2 (← skip? '-' rest)
  if DateTime.isValid year month day 0 0 0 0 then some rest else none

/-- Reads a time of day, in which seconds and their fraction may be left out. -/
private def readClock? (text : List Char) : Option (List Char) := do
  let (hour, rest) ← readDigits? 2 text
  let (minute, rest) ← readDigits? 2 (← skip? ':' rest)
  if hour > 23 ∨ minute > 59 then none
  else
    match rest with
    | ':' :: rest =>
      let (second, rest) ← readDigits? 2 rest
      if second > 60 then none
      else
        match rest with
        | '.' :: fraction =>
          let (digits, rest) := spanDigits fraction
          if digits.isEmpty then none else some rest
        | rest => some rest
    | rest => some rest

private def isOffset (text : List Char) : Bool :=
  match text with
  | [] | ['Z'] | ['z'] => true
  | sign :: rest =>
    (sign == '+' || sign == '-') &&
      match readDigits? 2 rest with
      | some (hours, ':' :: rest) =>
        hours ≤ 23 && (readDigits? 2 rest).any fun (minutes, rest) => minutes ≤ 59 && rest.isEmpty
      | _ => false

/-- Whether a text is a date, a time of day, or both, then perhaps with an offset. -/
def isDateTime (text : List Char) : Bool :=
  match readDate? text with
  | some [] => true
  | some (mark :: rest) => (mark == 'T' || mark == 't' || mark == ' ') && (readClock? rest).any isOffset
  | none => readClock? text == some []

/-- The characters of a value without quotes or brackets, up to what ends it. -/
def isScalarChar (c : Char) : Bool := !"=,[]\x7b\x7d \t#\r\n".toList.contains c

/-- Splits off the text of a value without quotes or brackets. A blank is part of it between a date
and a time. -/
def spanScalar (text : List Char) : List Char × List Char :=
  let first := text.takeWhile isScalarChar
  let rest := text.dropWhile isScalarChar
  match readDate? first, rest with
  | some [], ' ' :: digit :: more =>
    if digit.isDigit then
      (first ++ ' ' :: (digit :: more).takeWhile isScalarChar, (digit :: more).dropWhile isScalarChar)
    else (first, rest)
  | _, _ => (first, rest)

def readScalar? (text : List Char) : Option Node :=
  if text = "true".toList then some (.boolean true)
  else if text = "false".toList then some (.boolean false)
  else
    ((readInteger? text).or (readFloat? text)).or (if isDateTime text then some .dateTime else none)

/-- The control characters that stand in no text and no comment as they are. -/
def isForbidden (c : Char) : Bool := (c.toNat < 0x20 && c != '\t') || c.toNat == 0x7F

/-- The character that an escape with hexadecimal digits denotes. -/
def scalarOfHex? (digits : List Char) : Option Char :=
  (readHex? digits).bind fun code => if code.isValidChar then some (Char.ofNat code) else none

def prepend (c : Char) : Option (List Char × List Char) → Option (List Char × List Char) :=
  Option.map fun (text, rest) => (c :: text, rest)

/-- What a letter or sign after a backslash stands for on its own. -/
def escaped? (mark : Char) : Option Char :=
  [('b', '\x08'), ('t', '\t'), ('n', '\n'), ('f', '\x0C'), ('r', '\r'), ('e', '\x1B'), ('\x22', '\x22'),
    ('\\', '\\')].lookup mark

/-- How many hexadecimal digits belong to an escape. -/
def escapeWidth? (mark : Char) : Option Nat := [('x', 2), ('u', 4), ('U', 8)].lookup mark

/-- Reads an escape from after its backslash. -/
def readEscape? : List Char → Option (Char × List Char)
  | [] => none
  | mark :: rest =>
    match escapeWidth? mark with
    | none => (escaped? mark).map (·, rest)
    | some width =>
      if rest.length < width then none else (scalarOfHex? (rest.take width)).map (·, rest.drop width)

theorem length_of_readEscape? {text rest : List Char} {c : Char} (read : readEscape? text = some (c, rest)) :
    rest.length < text.length := by
  cases text with
  | nil => cases read
  | cons mark after =>
    rw [readEscape?] at read
    split at read
    next =>
      obtain ⟨_, _, same⟩ := Option.map_eq_some_iff.mp read
      cases same
      simp
    next width _ =>
      split at read
      next => cases read
      next =>
        obtain ⟨_, _, same⟩ := Option.map_eq_some_iff.mp read
        cases same
        simp only [List.length_drop, List.length_cons]
        omega

/-- Reads a text from after its first double quote. -/
def readBasic? : List Char → Option (List Char × List Char)
  | [] => none
  | c :: rest =>
    if c = '\x22' then some ([], rest)
    else if c = '\\' then
      match escaped : readEscape? rest with
      | none => none
      | some (c, after) =>
        have := length_of_readEscape? escaped
        prepend c (readBasic? after)
    else if isForbidden c then none
    else prepend c (readBasic? rest)
termination_by text => text.length
decreasing_by
  · simp only [List.length_cons]
    omega
  · simp

def readLiteral? : List Char → Option (List Char × List Char)
  | [] => none
  | c :: rest =>
    if c = '\x27' then some ([], rest)
    else if isForbidden c then none
    else prepend c (readLiteral? rest)

/-- Drops the line break right after the quotes that open a text of several lines. -/
def dropFirstBreak : List Char → List Char
  | '\n' :: rest => rest
  | '\r' :: '\n' :: rest => rest
  | text => text

/-- Reads the three quotes that close a text of several lines, and one or two before them that are part of
it. -/
def readClosing? (quote : Char) (text : List Char) : Option (List Char × List Char) :=
  let run := min 5 (text.takeWhile (· == quote)).length
  if run < 3 then none else some (List.replicate (run - 3) quote, text.drop run)

/-- Where the reader of a text of several lines is. -/
inductive LineMode where
  | content
  /-- After a backslash that ends a line, up to the line break. -/
  | lineEnd
  /-- After that line break, up to the next character that is not blank. -/
  | indent
deriving DecidableEq

/-- Reads a text of several lines in three double quotes, from after the first three. -/
def readLines? (mode : LineMode) : List Char → Option (List Char × List Char)
  | [] => none
  | c :: rest =>
    if c = '\n' then
      if mode = .content then prepend '\n' (readLines? .content rest) else readLines? .indent rest
    else if c = '\r' ∧ rest.head? = some '\n' then
      if mode = .content then prepend '\r' (readLines? .content rest) else readLines? mode rest
    else if mode ≠ .content ∧ (c = ' ' ∨ c = '\t') then readLines? mode rest
    else if mode = .lineEnd then none
    else
      match readClosing? '\x22' (c :: rest) with
      | some closed => some closed
      | none =>
        if c = '\\' then
          match escaped : readEscape? rest with
          | none => readLines? .lineEnd rest
          | some (c, after) =>
            have := length_of_readEscape? escaped
            prepend c (readLines? .content after)
        else if isForbidden c then none
        else prepend c (readLines? .content rest)
termination_by text => text.length
decreasing_by
  all_goals
    simp only [List.length_cons]
    omega

/-- Reads a text of several lines in three single quotes, from after the first three. -/
def readLiteralLines? : List Char → Option (List Char × List Char)
  | [] => none
  | c :: rest =>
    match readClosing? '\x27' (c :: rest) with
    | some closed => some closed
    | none =>
      if isForbidden c && c != '\n' && !(c == '\r' && rest.head? == some '\n') then none
      else prepend c (readLiteralLines? rest)

def readQuoted? : List Char → Option (List Char × List Char)
  | '\x22' :: '\x22' :: '\x22' :: rest => readLines? .content (dropFirstBreak rest)
  | '\x27' :: '\x27' :: '\x27' :: rest => readLiteralLines? (dropFirstBreak rest)
  | '\x22' :: rest => readBasic? rest
  | '\x27' :: rest => readLiteral? rest
  | _ => none

end ReportEngine.Toml
