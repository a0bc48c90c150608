import Pinfall.Number.Binary64
import Pinfall.Number.Integer

/-!
# Shortest decimal text

The text of a double-precision number with the fewest significant digits that
read back to it, and of those the nearest (an exact tie goes to the even last
digit).  It is laid out without an exponent from 0.0001 up to below 10 ^ 16, and
always holds a point or an exponent.
-/

namespace Pinfall.Number

/-- The number of decimal digits of a positive number. -/
def decimalLength (n : Nat) : Nat :=
  (Nat.toDigits 10 n).length

namespace Binary64

/-- The decimal position of a positive number of units: the least `p` with the
value below `10 ^ p`.  Every positive number is at least `10 ^ -324`. -/
def decimalPosition (units : Nat) : Int :=
  (decimalLength (units * Nat.pow 10 324 / unitsPerOne) : Int) - 324

/-- `units / 10 ^ exponent` ones, as a numerator and a denominator. -/
def scaled (units : Nat) (exponent : Int) : Nat × Nat :=
  if 0 ≤ exponent then (units, unitsPerOne * Nat.pow 10 exponent.toNat)
  else (units * Nat.pow 10 (-exponent).toNat, unitsPerOne)

/-- The grid point nearest to a value on the grid of multiples of
`10 ^ exponent`, and then the other of its two neighbours. -/
def gridNeighbours (units : Nat) (exponent : Int) : List Nat :=
  let (num, den) := scaled units exponent
  let near := roundHalfEven num den
  if near = num / den then [near, near + 1] else [near, near - 1]

/-- The decimal with the fewest significant digits that reads back to a positive
finite magnitude code, as coefficient and exponent.  Seventeen digits always
suffice. -/
def shortestDecimal (code : Nat) : Nat × Int :=
  let units := unitsOfCode code
  let position := decimalPosition units
  let onGrid (digits : Nat) : Option (Nat × Int) :=
    let exponent := position - digits
    let readsBack (coefficient : Nat) : Bool :=
      (ofDecimal false coefficient exponent).magnitude = code
    ((gridNeighbours units exponent).find? readsBack).map (·, exponent)
  ((List.range 17).findSome? fun n => onGrid (n + 1)).getD (0, 0)

/-- The sign and at least two digits of an exponent. -/
def exponentText (exponent : Int) : String :=
  let digits := Nat.repr exponent.natAbs
  (if exponent < 0 then "-" else "+") ++ (if digits.length < 2 then "0" else "") ++ digits

/-- Lay out the significant digits of a value below `10 ^ position`. -/
def layout (digits : List Char) (position : Int) : String :=
  if -4 < position ∧ position ≤ 16 then
    if position ≤ 0 then
      "0." ++ String.ofList (List.replicate (-position).toNat '0' ++ digits)
    else
      let places := position.toNat
      let whole := digits.take places ++ List.replicate (places - digits.length) '0'
      let fraction := if digits.length ≤ places then ['0'] else digits.drop places
      String.ofList (whole ++ '.' :: fraction)
  else
    let fraction := digits.drop 1
    String.ofList (digits.take 1 ++ if fraction.isEmpty then [] else '.' :: fraction) ++
      "e" ++ exponentText (position - 1)

/-- The shortest text of a number. -/
def text (x : Binary64) : String :=
  if x.isNaN then "nan"
  else
    let sign := if x.negative then "-" else ""
    if !x.isFinite then sign ++ "inf"
    else if x.isZero then sign ++ "0.0"
    else
      let (coefficient, exponent) := shortestDecimal x.magnitude
      let digits := Nat.toDigits 10 coefficient
      let significant := (digits.reverse.dropWhile (· = '0')).reverse
      sign ++ layout significant (exponent + digits.length)

end Binary64

end Pinfall.Number
