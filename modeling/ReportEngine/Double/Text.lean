import ReportEngine.Double.Shortest
import ReportEngine.Text.Plain

/-! Doubles as text. They are written in positional notation with the fewest digits that read back,
and read from any decimal or exponent notation. -/

namespace ReportEngine.Double

open Text

def toText : Double → List Char
  | nan => "NaN".toList
  | infinite negative => (if negative then "-Infinity" else "Infinity").toList
  | finite negative rank =>
    let (digits, scale) := shortestDigits rank
    (if negative then ['-'] else []) ++ plain digits scale

/-- The double nearest to `digits * 10 ^ exponent`. Beyond the first and the last power of ten that
matter, the exponent is not expanded. -/
def ofScientific (negative : Bool) (digits : Nat) (exponent : Int) : Double :=
  let magnitude : Int := (digitsOfNat digits).length + exponent
  if digits = 0 ∨ magnitude < -324 then signedZero negative
  else if magnitude > 310 then infinite negative
  else ofRatio negative (digits * tenTo exponent.toNat) (tenTo (-exponent).toNat)

def readExponent? : List Char → Option Int
  | [] => some 0
  | mark :: rest => if mark == 'e' || mark == 'E' then readInt? rest else none

/-- Reads an optional sign, digits with an optional point among or around them, and an optional
exponent. At least one digit must stand before the exponent. -/
def read? (text : List Char) : Option Double :=
  let (negative, unsigned) := spanSign text
  let (whole, afterWhole) := spanDigits unsigned
  let (fraction, afterFraction) :=
    match afterWhole with
    | '.' :: rest => spanDigits rest
    | _ => ([], afterWhole)
  let digits := whole ++ fraction
  if digits.isEmpty then none
  else (readExponent? afterFraction).map fun exponent =>
    ofScientific negative (natOfDigits digits) (exponent - fraction.length)

end ReportEngine.Double
