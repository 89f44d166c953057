import ReportEngine.Decimal.Text
import ReportEngine.Double.Arithmetic
import ReportEngine.Double.Text

/-! Between decimals, doubles and whole numbers. -/

namespace ReportEngine.Decimal

open Text

/-- The decimal with the shortest digits that read back as a finite double. -/
def ofDouble? : Double → Option Decimal
  | .finite negative rank =>
    let (digits, scale) := Double.shortestDigits rank
    some ⟨if negative then -digits else digits, scale⟩
  | _ => none

/-- The nearest whole number, a half going to the even neighbour. -/
def round (d : Decimal) : Int :=
  let size := Double.halfEven (d.digitsAt (max d.scale 0)).natAbs (tenTo d.scale.toNat)
  if d.isNegative then -size else size

/-- Cuts digits off in groups of nineteen, as long as at least about twenty-five are left. -/
private def cutDigits (digits : Nat) (scale : Int) : Nat × Int :=
  let estimate := (digitsOfNat (twoTo (digits.log2 + 2))).length - 1
  let groups := (estimate - 25) / 19
  (digits / tenTo (19 * groups), scale - 19 * groups)

/-- The double for a decimal whose magnitude lies in the range of doubles. Whole numbers and numbers
with a fraction give the nearest double. A whole number at a negative scale is the product of two
roundings: its digits, and a power of ten. -/
def toDoubleInRange (d : Decimal) : Double :=
  let negative := d.isNegative
  let size := d.digits.natAbs
  if d.scale = 0 then Double.ofRatio negative size 1
  else
    let (digits, scale) := cutDigits size d.scale
    if 0 < scale then Double.ofScientific negative digits (-scale)
    else
      let value := Double.mul (Double.ofRatio false digits 1) (Double.pow (Double.ofInt 10) (-scale).toNat)
      if negative then value.neg else value

/-- The double for a decimal. The order of magnitude decides overflow and underflow, without
expanding any digits. -/
def toDouble (d : Decimal) : Double :=
  if d.isZero then .zero
  else if d.magnitude > 309 then .infinite d.isNegative
  else if d.magnitude < -324 then .signedZero d.isNegative
  else d.toDoubleInRange

end ReportEngine.Decimal
