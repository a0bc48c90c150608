import Pinfall.Number.Binary64
import Pinfall.Number.Integer

/-!
# Two decimal places

A double-precision number with two digits after the point, rounded from its
exact value, a half to the even neighbour.  A negative number keeps its sign
even when it rounds to zero.
-/

namespace Pinfall.Number.Binary64

/-- The text of a number with two decimal places. -/
def fixedTwo (x : Binary64) : String :=
  if x.isNaN then "nan"
  else
    let sign := if x.negative then "-" else ""
    if !x.isFinite then sign ++ "inf"
    else
      let hundredths := roundHalfEven (unitsOfCode x.magnitude * 100) unitsPerOne
      let fraction := Nat.repr (hundredths % 100)
      sign ++ Nat.repr (hundredths / 100) ++ "." ++
        (if fraction.length < 2 then "0" else "") ++ fraction

end Pinfall.Number.Binary64
