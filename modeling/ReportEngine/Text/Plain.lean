import ReportEngine.Text.Digits

/-! Positional notation: whole digits, a point, and as many fraction digits as the scale asks for. -/

namespace ReportEngine.Text

/-- Writes `digits * 10 ^ -scale` without an exponent. A negative scale is written as zeros. -/
def plain (digits : Nat) (scale : Int) : List Char :=
  if scale ≤ 0 then digitsOfNat digits ++ List.replicate (-scale).toNat '0'
  else
    let places := scale.toNat
    let written := padded (places + 1) digits
    written.take (written.length - places) ++ '.' :: written.drop (written.length - places)

end ReportEngine.Text
