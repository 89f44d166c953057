import ReportEngine.Power
import ReportEngine.Text.Digits

/-! Decimals: whole digits and a scale. The scale is part of the value, so `1.0` and `1` are
distinct decimals of equal size. -/

namespace ReportEngine

/-- The number `digits * 10 ^ -scale`. -/
structure Decimal where
  digits : Int
  scale : Int
deriving DecidableEq, Repr, Inhabited

namespace Decimal

def ofInt (n : Int) : Decimal := ⟨n, 0⟩

def zero : Decimal := ofInt 0

def isZero (d : Decimal) : Bool := d.digits == 0

def isNegative (d : Decimal) : Bool := d.digits < 0

def digitCount (d : Decimal) : Nat := (Text.digitsOfNat d.digits.natAbs).length

def saturate64 (n : Int) : Int := max (-0x8000000000000000) (min n 0x7FFFFFFFFFFFFFFF)

def fits64 (n : Int) : Bool := -0x8000000000000000 ≤ n && n < 0x8000000000000000

/-- Negation in signed 64-bit words, which overflows for the lowest one. -/
def negate64? (n : Int) : Option Int := if fits64 (-n) then some (-n) else none

/-- The order of magnitude `m` of a decimal that is not zero: its size is less than `10 ^ m` and at
least `10 ^ (m - 1)`. It is read off the digit count and the scale, as a 64-bit word. -/
def magnitude (d : Decimal) : Int := saturate64 (d.digitCount - d.scale)

/-- The digits at a scale that is not below the decimal's own. -/
def digitsAt (d : Decimal) (scale : Int) : Int := d.digits * tenTo (scale - d.scale).toNat

/-- The same number at a scale that is at least the one given. -/
def atLeastScale (d : Decimal) (scale : Int) : Decimal :=
  if d.scale < scale then ⟨d.digitsAt scale, scale⟩ else d

/-- Orders the sizes of two decimals that are not zero. Digits are expanded only where the leading
digits stand at the same place. -/
def compareSize (left right : Decimal) : Ordering :=
  let top := fun (d : Decimal) => (d.digitCount : Int) - d.scale
  (Ord.compare (top left) (top right)).then <|
    let scale := max left.scale right.scale
    Ord.compare (left.digitsAt scale).natAbs (right.digitsAt scale).natAbs

/-- Numeric order, whatever the scales. -/
def compare (left right : Decimal) : Ordering :=
  (Ord.compare left.digits.sign right.digits.sign).then <|
    if left.digits = 0 then .eq
    else if left.digits < 0 then compareSize right left
    else compareSize left right

def equal (left right : Decimal) : Bool := compare left right == .eq

end Decimal

end ReportEngine
