import ReportEngine.Double.Basic

/-! Arithmetic of doubles: the exact result, rounded once. -/

namespace ReportEngine.Double

def neg : Double → Double
  | nan => nan
  | infinite negative => infinite (!negative)
  | finite negative rank => finite (!negative) rank

/-- The double nearest to a sum of units. A sum that cancels is a positive zero, unless both
operands were negative. -/
def ofSum (bothNegative : Bool) (sum : Int) : Double :=
  if sum = 0 then signedZero bothNegative else nearest (sum < 0) sum.natAbs 1

/-- The signed number of units in a magnitude. -/
def signed (negative : Bool) (rank : Nat) : Int :=
  if negative then -(unitsAt rank) else unitsAt rank

def add : Double → Double → Double
  | nan, _ | _, nan => nan
  | infinite a, infinite b => if a == b then infinite a else nan
  | infinite a, finite _ _ => infinite a
  | finite _ _, infinite b => infinite b
  | finite a r, finite b s => ofSum (a && b) (signed a r + signed b s)

def sub (left right : Double) : Double := add left (neg right)

def mul : Double → Double → Double
  | nan, _ | _, nan => nan
  | infinite a, infinite b => infinite (a != b)
  | infinite a, finite b s => if s.val == 0 then nan else infinite (a != b)
  | finite a r, infinite b => if r.val == 0 then nan else infinite (a != b)
  | finite a r, finite b s => nearest (a != b) (unitsAt r * unitsAt s) one

/-- Division never fails: by zero it gives an infinity, or `nan` for zero by zero. -/
def div : Double → Double → Double
  | nan, _ | _, nan => nan
  | infinite _, infinite _ => nan
  | infinite a, finite b _ => infinite (a != b)
  | finite a _, infinite b => signedZero (a != b)
  | finite a r, finite b s =>
    if s.val == 0 then (if r.val == 0 then nan else infinite (a != b))
    else nearest (a != b) (unitsAt r * one) (unitsAt s)

/-- The exact remainder of truncated division, with the sign of the left operand. -/
def rem : Double → Double → Double
  | nan, _ | _, nan | infinite _, _ => nan
  | finite a r, infinite _ => finite a r
  | finite a r, finite _ s =>
    if s.val == 0 then nan else nearest a (unitsAt r % unitsAt s) 1

/-- `base ^ exponent` by repeated squaring from the low bit up, rounding at every product. -/
def powFrom (result base : Double) (exponent : Nat) : Double :=
  let next := if exponent % 2 == 1 then mul result base else result
  if exponent < 2 then next else powFrom next (mul base base) (exponent / 2)
termination_by exponent

def pow (base : Double) (exponent : Nat) : Double := powFrom (ofInt 1) base exponent

end ReportEngine.Double
