import ReportEngine.Power

/-! Double precision numbers as data. A finite number is a sign and the rank of its magnitude among
all magnitudes, and stands for a whole number of units of `2 ^ -1074`, so every operation can be
carried out exactly and then rounded once. -/

namespace ReportEngine

/-- The rank of the infinite magnitude: below it lie the finite ones, from zero upwards. -/
def Double.infinityRank : Nat := 0x7FF0000000000000

/-- A double. The one `nan` stands for every encoding of it. -/
inductive Double where
  | nan
  | infinite (negative : Bool)
  | finite (negative : Bool) (rank : Fin 0x7FF0000000000000)
deriving DecidableEq, Repr

namespace Double

def signedZero (negative : Bool) : Double := finite negative 0

instance : Inhabited Double := ⟨signedZero false⟩

/-- Ranks between two neighbouring powers of two. -/
def binade : Nat := 0x10000000000000

/-- The units of `2 ^ -1074` in the magnitude of a rank. From `2 ^ 53` units on, neighbours are
further apart than one unit. -/
def unitsAt (rank : Nat) : Nat :=
  if rank < binade then rank else (binade + rank % binade) * twoTo (rank / binade - 1)

def one : Nat := twoTo 1074

/-- The whole number nearest to a quotient, a half going to the even neighbour. -/
def halfEven (numerator denominator : Nat) : Nat :=
  let quotient := numerator / denominator
  let twice := 2 * (numerator % denominator)
  if twice < denominator || (twice == denominator && quotient % 2 == 0) then quotient
  else quotient + 1

/-- The rank nearest to a quotient of units, a tie going to the even rank. It may lie at
`infinityRank` or beyond. -/
def nearestRank (numerator denominator : Nat) : Nat :=
  let shift := (numerator / denominator).log2 - 52
  shift * binade + halfEven numerator (denominator * twoTo shift)

def ofRank (negative : Bool) (rank : Nat) : Double :=
  if inside : rank < 0x7FF0000000000000 then finite negative ⟨rank, inside⟩ else infinite negative

/-- The double nearest to a signed quotient of units. -/
def nearest (negative : Bool) (numerator denominator : Nat) : Double :=
  ofRank negative (nearestRank numerator denominator)

def ofRatio (negative : Bool) (numerator denominator : Nat) : Double :=
  nearest negative (numerator * one) denominator

def ofInt (n : Int) : Double := ofRatio (n < 0) n.natAbs 1

def signBit : Nat := 0x8000000000000000

def ofBits (bits : UInt64) : Double :=
  let magnitude := bits.toNat % signBit
  if infinityRank < magnitude then nan else ofRank (signBit ≤ bits.toNat) magnitude

def toBits : Double → UInt64
  | nan => 0x7FF8000000000000
  | infinite negative => if negative then 0xFFF0000000000000 else 0x7FF0000000000000
  | finite negative rank => UInt64.ofNat ((if negative then signBit else 0) + rank)

/-- The exact signed number of units, with infinity at the rank after the last finite one. -/
def units? : Double → Option Int
  | nan => none
  | infinite negative => some (if negative then -(unitsAt infinityRank) else unitsAt infinityRank)
  | finite negative rank => some (if negative then -(unitsAt rank) else unitsAt rank)

/-- Numeric order. Nothing is ordered against `nan`, and both zeros are equal. -/
def compare (left right : Double) : Option Ordering :=
  match left.units?, right.units? with
  | some a, some b => some (Ord.compare a b)
  | _, _ => none

def isFinite : Double → Bool
  | finite _ _ => true
  | _ => false

def isZero : Double → Bool
  | finite _ rank => rank.val == 0
  | _ => false

def zero : Double := signedZero false

def negativeZero : Double := signedZero true

/-- The whole number nearest to a finite double, a half going to the even neighbour. -/
def round? : Double → Option Int
  | finite negative rank =>
    let magnitude := halfEven (unitsAt rank) one
    some (if negative then -magnitude else magnitude)
  | _ => none

end Double

end ReportEngine
