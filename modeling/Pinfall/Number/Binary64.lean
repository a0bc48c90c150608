import Pinfall.Number.Rounding

/-!
# Double-precision numbers

The 64-bit binary format of IEEE 754, computed with exactly.  A number is its
sign and its magnitude code: the lower 63 bits, which count the non-negative
numbers upwards from zero through the finite numbers and infinity to the NaNs.
Every finite number is a whole multiple of the smallest positive one, 2 ^ -1074,
so exact values are integers in that unit.
-/

namespace Pinfall.Number

/-- The weight of the sign bit. -/
def signWeight : Nat := 0x8000000000000000

/-- A double-precision number. -/
structure Binary64 where
  negative : Bool
  magnitude : Nat
  magnitude_lt : magnitude < signWeight
  deriving DecidableEq

namespace Binary64

/-- How many numbers share an exponent: 2 to the power of 52. -/
def binade : Nat := 0x10000000000000

/-- The magnitude code of infinity; the finite numbers lie below, the NaNs above. -/
def infinityCode : Nat := 2047 * binade

/-- How many of the smallest positive numbers make one. -/
def unitsPerOne : Nat := Nat.pow 2 1074

/-- The exact value of a finite magnitude code, in units. -/
def unitsOfCode (code : Nat) : Nat :=
  if code < binade then code
  else (binade + code % binade) * Nat.pow 2 (code / binade - 1)

/-- The magnitude code nearest to `num / den` units, ties to the even code.
The quotient keeps 53 significant bits; counting them up from the binade's first
code also carries into the next binade and, at the top, into infinity. -/
def nearestCode (num den : Nat) : Nat :=
  let shift := Nat.log2 (num / den) - 52
  min (shift * binade + roundHalfEven num (den * Nat.pow 2 shift)) infinityCode

theorem nearestCode_lt (num den : Nat) : nearestCode num den < signWeight :=
  Nat.lt_of_le_of_lt (Nat.min_le_right _ _) (by decide)

/-- The number nearest to `num / den` units, with a sign of its own so that zero
keeps one. -/
def ofUnits (negative : Bool) (num den : Nat) : Binary64 :=
  ⟨negative, nearestCode num den, nearestCode_lt num den⟩

def zero (negative : Bool) : Binary64 :=
  ⟨negative, 0, by decide⟩

def infinity (negative : Bool) : Binary64 :=
  ⟨negative, infinityCode, by decide⟩

def nan (negative : Bool) : Binary64 :=
  ⟨negative, infinityCode + binade / 2, by decide⟩

/-- The number nearest to an integer. -/
def ofInt (n : Int) : Binary64 :=
  ofUnits (n < 0) (n.natAbs * unitsPerOne) 1

/-- The number nearest to `± coefficient * 10 ^ exponent`.  Beyond the exponents
looked at first the answer is infinity or zero, and no power is formed. -/
def ofDecimal (negative : Bool) (coefficient : Nat) (exponent : Int) : Binary64 :=
  if coefficient = 0 then zero negative
  else if 400 < exponent then infinity negative
  else if exponent + Nat.log2 coefficient + 1 < -400 then zero negative
  else if 0 ≤ exponent then
    ofUnits negative (coefficient * Nat.pow 10 exponent.toNat * unitsPerOne) 1
  else
    ofUnits negative (coefficient * unitsPerOne) (Nat.pow 10 (-exponent).toNat)

/-- The 64 bits as a number. -/
def toBits (x : Binary64) : Nat :=
  (if x.negative then signWeight else 0) + x.magnitude

def isNaN (x : Binary64) : Bool :=
  infinityCode < x.magnitude

def isFinite (x : Binary64) : Bool :=
  x.magnitude < infinityCode

def isZero (x : Binary64) : Bool :=
  x.magnitude = 0

/-- The exact value of a finite number, in units. -/
def units? (x : Binary64) : Option Int :=
  if x.isFinite then
    some (if x.negative then -(unitsOfCode x.magnitude : Int) else unitsOfCode x.magnitude)
  else
    none

/-- The integer that a number is, if it is one. -/
def toInt? (x : Binary64) : Option Int := do
  let units ← x.units?
  if units % unitsPerOne = 0 then some (units / unitsPerOne) else none

/-- Between zero and one, both included; a NaN is not. -/
def inUnitInterval (x : Binary64) : Bool :=
  match x.units? with
  | some units => 0 ≤ units && units ≤ unitsPerOne
  | none => false

end Binary64

end Pinfall.Number
