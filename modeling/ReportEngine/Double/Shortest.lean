import ReportEngine.Double.Basic
import ReportEngine.Text.Digits

/-! The shortest decimal that reads back as a given double, and of those the nearest to it. -/

namespace ReportEngine.Double

/-- Whether `digits * 10 ^ exponent` rounds to a rank. -/
def readsBack (rank digits : Nat) (exponent : Int) : Bool :=
  nearestRank (digits * tenTo exponent.toNat * one) (tenTo (-exponent).toNat) == rank

/-- The multiple of `10 ^ exponent` that reads back as a rank, if one does. Only the two neighbours
of the exact value can; the nearer is preferred, and of two equally near ones the upper. -/
def pointAt? (rank : Nat) (exponent : Int) : Option Nat :=
  let numerator := unitsAt rank * tenTo (-exponent).toNat
  let denominator := one * tenTo exponent.toNat
  let below := numerator / denominator
  let order :=
    if 2 * (numerator % denominator) < denominator then [below, below + 1] else [below + 1, below]
  order.find? fun digits => readsBack rank digits exponent

/-- The exponent of the leading decimal digit of a magnitude that is not zero. -/
def leadingExponent (rank : Nat) : Int :=
  let units := unitsAt rank
  if one ≤ units then (Text.digitsOfNat (units / one)).length - 1
  else -(Text.digitsOfNat (one / units)).length

/-- Seventeen digits always suffice; one grid more, coarser than the value, is where a power of ten
just above it is found. -/
def shortest? (rank : Nat) : Option (Nat × Int) :=
  (List.range 18).findSome? fun (step : Nat) =>
    let exponent := leadingExponent rank + 1 - step
    (pointAt? rank exponent).map fun digits => (digits, exponent)

/-- The shortest decimal as digits and a scale that is never negative. -/
def shortestDigits (rank : Nat) : Nat × Nat :=
  match shortest? rank with
  | some (digits, exponent) => (digits * tenTo exponent.toNat, (-exponent).toNat)
  | none => (0, 0)

end ReportEngine.Double
