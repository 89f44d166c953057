/-! Powers of the two bases that numbers are kept in: magnitudes of doubles are counted in powers of
two, places of decimals in powers of ten. -/

namespace ReportEngine

def twoTo (exponent : Nat) : Nat := Nat.pow 2 exponent

def tenTo (exponent : Nat) : Nat := Nat.pow 10 exponent

end ReportEngine
