import ReportEngine.DateTime.Basic
import ReportEngine.Power
import ReportEngine.Text.Blank
import ReportEngine.Text.Digits

/-! Date-times as text. The written form is `YYYY-MM-DDTHH:MM:SS` with as many groups of three
fraction digits as are needed. A blank may be read in place of the `T`, and a date alone stands for
its midnight. -/

namespace ReportEngine.DateTime

open Text

def yearText (year : Int) : List Char :=
  if 0 ≤ year ∧ year ≤ 9999 then padded 4 year.natAbs
  else (if year < 0 then '-' else '+') :: padded 4 year.natAbs

/-- The fewest of three, six and nine digits that are exact. -/
def fractionText (nanosecond : Nat) : List Char :=
  if nanosecond = 0 then []
  else if nanosecond % 1000000 = 0 then '.' :: padded 3 (nanosecond / 1000000)
  else if nanosecond % 1000 = 0 then '.' :: padded 6 (nanosecond / 1000)
  else '.' :: padded 9 nanosecond

/-- A leap second is written as the second after its own, whatever that one is. -/
def toText (t : DateTime) : List Char :=
  yearText t.year ++ '-' :: padded 2 t.month ++ '-' :: padded 2 t.day ++ 'T' :: padded 2 t.hour ++
    ':' :: padded 2 t.minute ++ ':' :: padded 2 (t.second + t.nanosecond / nanosPerSecond) ++
    fractionText (t.nanosecond % nanosPerSecond)

/-- Reads a number of one to `width` digits, after any blanks. -/
def readNumber? (width : Nat) (text : List Char) : Option (Nat × List Char) :=
  let text := trimStart text
  let digits := (text.takeWhile Char.isDigit).take width
  if digits.isEmpty then none else some (natOfDigits digits, text.drop digits.length)

/-- Reads a year, after any blanks. With a sign it may have any number of digits. -/
def readYear? (text : List Char) : Option (Int × List Char) :=
  let signed := fun (rest : List Char) =>
    let (digits, rest) := spanDigits rest
    if digits.isEmpty then none else some (natOfDigits digits, rest)
  match trimStart text with
  | '-' :: rest => (signed rest).map fun (year, rest) => (-(year : Int), rest)
  | '+' :: rest => (signed rest).map fun (year, rest) => ((year : Int), rest)
  | text => (readNumber? 4 text).map fun (year, rest) => ((year : Int), rest)

def skip? (expected : Char) : List Char → Option (List Char)
  | [] => none
  | c :: rest => if c == expected then some rest else none

/-- Reads the fraction of a second that ends a text. Digits after the ninth are dropped. -/
def readFraction? : List Char → Option Nat
  | [] => some 0
  | c :: rest =>
    if c != '.' || rest.isEmpty || !rest.all Char.isDigit then none
    else
      let digits := rest.take 9
      some (natOfDigits digits * tenTo (9 - digits.length))

def readTime? (text : List Char) : Option (Nat × Nat × Nat × Nat) := do
  let (hour, rest) ← readNumber? 2 text
  let (minute, rest) ← readNumber? 2 (← skip? ':' rest)
  let (second, rest) ← readNumber? 2 (← skip? ':' rest)
  let nanosecond ← readFraction? rest
  some (hour, minute, second, nanosecond)

def read? (text : List Char) : Option DateTime := do
  let (year, rest) ← readYear? text
  let (month, rest) ← readNumber? 2 (← skip? '-' rest)
  let (day, rest) ← readNumber? 2 (← skip? '-' rest)
  let (hour, minute, second, nanosecond) ←
    match rest with
    | [] => some (0, 0, 0, 0)
    | 'T' :: rest => readTime? rest
    | rest => readTime? rest
  ofClock? year month day hour minute second nanosecond

end ReportEngine.DateTime
