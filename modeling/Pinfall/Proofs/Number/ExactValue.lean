import Mathlib.Algebra.Order.Field.Basic
import Mathlib.Algebra.Order.Field.Rat
import Pinfall.Number.Binary64

/-!
# The exact values of double-precision numbers

Every finite double-precision number is a rational number, and what is asked of it can be said
about this number: whether it is an integer, and whether it lies between zero and one.
-/

namespace Pinfall.Number.Binary64

variable {x : Binary64} {n : Int}

/-- The exact value of a finite number. -/
def value? (x : Binary64) : Option ℚ :=
  x.units?.map fun units : Int => (units : ℚ) / unitsPerOne

theorem unitsPerOne_pos : (0 : ℚ) < unitsPerOne := by
  have hpos : 0 < unitsPerOne := by
    unfold unitsPerOne
    generalize 1074 = exponent
    exact Nat.two_pow_pos exponent
  exact Nat.cast_pos.mpr hpos

/-- The test for the unit interval is right about the exact value. -/
theorem inUnitInterval_iff :
    x.inUnitInterval = true ↔ ∃ rate, x.value? = some rate ∧ 0 ≤ rate ∧ rate ≤ 1 := by
  cases hunits : x.units? with
  | none =>
    rw [inUnitInterval, value?, hunits]
    constructor
    · intro h
      contradiction
    · rintro ⟨rate, hrate, -⟩
      contradiction
  | some units =>
    have hnonneg : (0 : ℚ) ≤ units / unitsPerOne ↔ 0 ≤ units := by
      rw [le_div_iff₀ unitsPerOne_pos, zero_mul]
      exact_mod_cast Iff.rfl
    have hle : (units / unitsPerOne : ℚ) ≤ 1 ↔ units ≤ unitsPerOne := by
      rw [div_le_one unitsPerOne_pos]
      exact_mod_cast Iff.rfl
    rw [inUnitInterval, value?, hunits]
    simp only [Option.map_some, Option.some.injEq, exists_eq_left', hnonneg, hle,
      Bool.and_eq_true, decide_eq_true_eq]

/-- The integer of a number is its exact value, if that is one. -/
theorem toInt?_eq_some_iff : x.toInt? = some n ↔ x.value? = some (n : ℚ) := by
  cases hunits : x.units? with
  | none =>
    rw [toInt?, value?, hunits]
    exact ⟨nofun, nofun⟩
  | some units =>
    have hne : (unitsPerOne : Int) ≠ 0 := by exact_mod_cast unitsPerOne_pos.ne'
    have hvalue : (units / unitsPerOne : ℚ) = n ↔ units = n * unitsPerOne := by
      rw [div_eq_iff unitsPerOne_pos.ne']
      exact_mod_cast Iff.rfl
    have hdivides : units % unitsPerOne = 0 ∧ units / unitsPerOne = n ↔
        units = n * unitsPerOne := by
      constructor
      · rintro ⟨hmod, rfl⟩
        exact (Int.ediv_mul_cancel (Int.dvd_of_emod_eq_zero hmod)).symm
      · rintro rfl
        exact ⟨Int.mul_emod_left n _, Int.mul_ediv_cancel n hne⟩
    rw [toInt?, value?, hunits, Option.map_some, Option.some.injEq, hvalue, ← hdivides]
    change (if units % unitsPerOne = 0 then some (units / unitsPerOne) else none) = some n ↔ _
    rw [Option.ite_none_right_eq_some, Option.some.injEq]

end Pinfall.Number.Binary64
