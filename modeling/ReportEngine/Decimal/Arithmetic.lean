import ReportEngine.Decimal.Basic

/-! Arithmetic of decimals, with the scale each result takes. Sums and products are exact; a quotient
has at most a hundred digits. Scales are not bounded here: that of a product is the sum of two and that
of a quotient starts from a difference, also where a 64-bit word overflows. -/

namespace ReportEngine.Decimal

def neg (d : Decimal) : Decimal := ⟨-d.digits, d.scale⟩

/-- A zero leaves the other operand, at the larger of the two scales. -/
def add (left right : Decimal) : Decimal :=
  if right.isZero then left.atLeastScale right.scale
  else if left.isZero then right.atLeastScale left.scale
  else
    let scale := max left.scale right.scale
    ⟨left.digitsAt scale + right.digitsAt scale, scale⟩

/-- A zero on either side leaves the other operand at its own scale. -/
def sub (left right : Decimal) : Decimal :=
  if right.isZero then left
  else if left.isZero then right.neg
  else
    let scale := max left.scale right.scale
    ⟨left.digitsAt scale - right.digitsAt scale, scale⟩

/-- Whether the decimal is exactly one, written with at most 38 places. -/
def isOne (d : Decimal) : Bool :=
  0 ≤ d.scale && d.scale ≤ 38 && d.digits == tenTo d.scale.toNat

/-- A factor of one leaves the other operand at its own scale. -/
def mul (left right : Decimal) : Decimal :=
  if left.isOne then right
  else if right.isOne then left
  else ⟨left.digits * right.digits, left.scale + right.scale⟩

/-- The most digits long division writes. -/
def divisionDigits : Nat := 100

/-- Powers of ten by which a positive numerator falls short of a denominator. -/
def shortfall (numerator denominator : Nat) : Nat :=
  if 0 < numerator ∧ numerator < denominator then shortfall (numerator * 10) denominator + 1 else 0
termination_by denominator - numerator

/-- Long division of a remainder, already moved up by one place. Each step appends a digit to the
quotient. Answers the quotient, the remainder left and the number of digits appended. -/
def longDivision (denominator : Nat) : Nat → Nat → Nat → Nat × Nat × Nat
  | 0, quotient, remainder => (quotient, remainder, 0)
  | room + 1, quotient, remainder =>
    if remainder = 0 then (quotient, remainder, 0)
    else
      let (q, r, places) := longDivision denominator room
        (quotient * 10 + remainder / denominator) (remainder % denominator * 10)
      (q, r, places + 1)

/-- The quotient of two positive numbers, as digits and the places they take. The digit after the
last one decides the rounding, a five going up. -/
def quotient (numerator denominator : Nat) : Nat × Nat :=
  let short := shortfall numerator denominator
  let raised := numerator * tenTo short
  let whole := raised / denominator
  let room := divisionDigits - (Text.digitsOfNat whole).length
  let (digits, remainder, places) :=
    longDivision denominator room whole (raised % denominator * 10)
  (if 5 ≤ remainder / denominator then digits + 1 else digits, short + places)

/-- Division by a decimal that is not zero. A dividend of zero and a divisor of one leave the
dividend as it is. -/
def div (left right : Decimal) : Decimal :=
  if left.isZero || right.isOne then left
  else
    let scale := left.scale - right.scale
    if left.digits == right.digits then ⟨1, scale⟩
    else
      let (digits, places) := quotient left.digits.natAbs right.digits.natAbs
      ⟨if left.isNegative == right.isNegative then digits else -digits, scale + places⟩

/-- The remainder of truncated division, with the sign of the left operand. -/
def rem (left right : Decimal) : Decimal :=
  let scale := max left.scale right.scale
  ⟨(left.digitsAt scale).tmod (right.digitsAt scale), scale⟩

/-- Adds to a running sum. A zero adds nothing, not even its scale, and a sum of zero is replaced. -/
def accumulate (sum addend : Decimal) : Decimal :=
  if addend.isZero then sum else if sum.isZero then addend else sum.add addend

end ReportEngine.Decimal
