/-!
# Rounding a quotient

The one rounding rule of the library: to the nearest integer, a half to the even
neighbour.
-/

namespace Pinfall.Number

/-- The integer nearest to `num / den`; of two nearest ones, the even one. -/
def roundHalfEven (num den : Nat) : Nat :=
  let low := num / den
  let twice := 2 * (num % den)
  if twice < den ∨ (twice = den ∧ low % 2 = 0) then low else low + 1

/-- The rounded value is at most half a unit above the quotient. -/
theorem two_mul_roundHalfEven_le (num den : Nat) :
    2 * (den * roundHalfEven num den) ≤ 2 * num + den := by
  have hsplit := Nat.div_add_mod num den
  simp only [roundHalfEven]
  split
  next h =>
    omega
  next h =>
    rw [Nat.mul_add]
    omega

/-- The rounded value is at most half a unit below the quotient. -/
theorem le_two_mul_roundHalfEven {num den : Nat} (hden : 0 < den) :
    2 * num ≤ 2 * (den * roundHalfEven num den) + den := by
  have hsplit := Nat.div_add_mod num den
  have hmod := Nat.mod_lt num hden
  simp only [roundHalfEven]
  split
  next h =>
    omega
  next h =>
    rw [Nat.mul_add]
    omega

end Pinfall.Number
