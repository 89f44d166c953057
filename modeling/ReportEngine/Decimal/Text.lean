import ReportEngine.Decimal.Basic
import ReportEngine.Text.Plain

/-! Decimals as text. Moderate scales are written in positional notation, small numbers with more
than five zeros after the point and large ones with more than fifteen zeros at the end with an
exponent. -/

namespace ReportEngine.Decimal

open Text

def signText (n : Int) : List Char := if n < 0 then ['-'] else []

def exponentText (n : Int) : List Char := if n < 0 then digitsOfInt n else '+' :: digitsOfInt n

def pointAfterFirst : List Char → List Char
  | first :: second :: rest => first :: '.' :: second :: rest
  | digits => digits

def toText (d : Decimal) : List Char :=
  let written := digitsOfNat d.digits.natAbs
  let scale := if d.isZero then 0 else d.scale
  let unsigned :=
    if scale - written.length > 5 then
      pointAfterFirst written ++ 'E' :: exponentText (written.length - 1 - scale)
    else if -scale > 15 then written ++ 'e' :: exponentText (-scale)
    else plain d.digits.natAbs scale
  signText d.digits ++ unsigned

/-- The digits and the power of ten they are multiplied by, never expanded. The exponent is counted
in 64-bit words, and there is none for the lowest scale. -/
def toExponentText? (d : Decimal) : Option (List Char) :=
  (negate64? d.scale).map fun exponent => digitsOfInt d.digits ++ 'e' :: digitsOfInt exponent

/-- Reads digits that may have underscores anywhere but in front. -/
def readGrouped? (text : List Char) : Option Nat :=
  match text with
  | [] => none
  | '_' :: _ => none
  | _ => if text.all fun c => c.isDigit || c == '_' then some (natOfDigits (text.filter (· != '_'))) else none

def readSigned? (text : List Char) : Option Int :=
  let (negative, digits) := spanSign text
  (readGrouped? digits).map fun n => if negative then -(n : Int) else n

/-- The places a written number has: what follows its first point, underscores not counted. Answers
the number without that point, and the places. -/
def spanPoint (text : List Char) : List Char × Nat :=
  let whole := text.takeWhile (· != '.')
  let fraction := (text.dropWhile (· != '.')).drop 1
  (whole ++ fraction, (fraction.filter (· != '_')).length)

/-- Reads a number with an optional point and an optional exponent. The scale must fit a signed
64-bit word. -/
def read? (text : List Char) : Option Decimal := do
  let isMark := fun (c : Char) => c == 'e' || c == 'E'
  let base := text.takeWhile (!isMark ·)
  let exponent ←
    match text.dropWhile (!isMark ·) with
    | [] => some 0
    | _ :: rest => readInt? rest
  let (digits, places) := spanPoint base
  let scale := places - exponent
  if !fits64 scale then none
  else (readSigned? digits).map fun n => ⟨n, scale⟩

end ReportEngine.Decimal
