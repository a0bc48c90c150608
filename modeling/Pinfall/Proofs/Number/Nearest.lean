import Mathlib.Algebra.Order.Field.Basic
import Mathlib.Algebra.Order.Field.Power
import Mathlib.Algebra.Order.Field.Rat
import Mathlib.Tactic.FieldSimp
import Mathlib.Tactic.Linarith
import Mathlib.Tactic.Positivity
import Pinfall.Proofs.Number.ExactValue
import Pinfall.Proofs.Number.Magnitude

/-!
# The nearest number

A decimal number is read as the double-precision number that is nearest to it, and as the one
with the even code where two of them are equally near.
-/

namespace Pinfall.Number

variable {num den k m : Nat} {t : ℚ}

/-! ## The nearest integer -/

theorem abs_roundHalfEven_sub_le (hden : 0 < den) :
    |(roundHalfEven num den : ℚ) - num / den| ≤ 1 / 2 := by
  have hpos : (0 : ℚ) < den := Nat.cast_pos.mpr hden
  have hhigh : (2 * (den * roundHalfEven num den) : ℚ) ≤ 2 * num + den := by
    exact_mod_cast two_mul_roundHalfEven_le num den
  have hlow : (2 * num : ℚ) ≤ 2 * (den * roundHalfEven num den) + den := by
    exact_mod_cast le_two_mul_roundHalfEven hden
  have hquotient : (den : ℚ) * (num / den) = num := mul_div_cancel₀ _ hpos.ne'
  rw [abs_le]
  constructor
  · nlinarith
  · nlinarith

/-- Half-way between two integers the even one is taken. -/
theorem even_of_two_mul_roundHalfEven_eq
    (h : 2 * (den * roundHalfEven num den) = 2 * num + den ∨
      2 * num = 2 * (den * roundHalfEven num den) + den) (hden : 0 < den) :
    roundHalfEven num den % 2 = 0 := by
  have hsplit := Nat.div_add_mod num den
  have hmod := Nat.mod_lt num hden
  revert h
  simp only [roundHalfEven]
  split
  next hlow =>
    intro h
    omega
  next hhigh =>
    intro h
    rw [Nat.mul_add] at h
    omega

theorem even_of_abs_roundHalfEven_sub_eq (hden : 0 < den)
    (h : |(roundHalfEven num den : ℚ) - num / den| = 1 / 2) : roundHalfEven num den % 2 = 0 := by
  have hpos : (0 : ℚ) < den := Nat.cast_pos.mpr hden
  have hquotient : (den : ℚ) * (num / den) = num := mul_div_cancel₀ _ hpos.ne'
  apply even_of_two_mul_roundHalfEven_eq _ hden
  rcases eq_or_eq_neg_of_abs_eq h with habove | hbelow
  · left
    have hmul : (2 * (den * roundHalfEven num den) : ℚ) = 2 * num + den := by
      rw [sub_eq_iff_eq_add] at habove
      rw [habove, mul_add, hquotient]
      ring
    exact_mod_cast hmul
  · right
    have hmul : (2 * num : ℚ) = 2 * (den * roundHalfEven num den) + den := by
      rw [sub_eq_iff_eq_add] at hbelow
      rw [hbelow, mul_add, hquotient]
      ring
    exact_mod_cast hmul

theorem roundHalfEven_le (hden : 0 < den) (h : num ≤ den * k) : roundHalfEven num den ≤ k := by
  by_contra hlt
  have hmul := Nat.mul_le_mul_left den (Nat.succ_le_of_lt (not_le.mp hlt))
  have hround := two_mul_roundHalfEven_le num den
  rw [Nat.mul_succ] at hmul
  omega

theorem le_roundHalfEven (hden : 0 < den) (h : den * k ≤ num) : k ≤ roundHalfEven num den := by
  by_contra hlt
  have hmul := Nat.mul_le_mul_left den (Nat.succ_le_of_lt (not_le.mp hlt))
  have hround := @le_two_mul_roundHalfEven num den hden
  rw [Nat.mul_succ] at hmul
  omega

/-- Two integers are one apart at least, and so are the ways to them together. -/
theorem one_le_abs_sub_add_of_ne (hne : k ≠ m) (t : ℚ) :
    1 ≤ |(k : ℚ) - t| + |(m : ℚ) - t| := by
  have hapart : (1 : Int) ≤ |(k : Int) - m| :=
    Int.one_le_abs (sub_ne_zero.mpr (by exact_mod_cast hne))
  calc (1 : ℚ) ≤ |(k : ℚ) - m| := by exact_mod_cast hapart
    _ ≤ |(k : ℚ) - t| + |t - m| := abs_sub_le _ _ _
    _ = |(k : ℚ) - t| + |(m : ℚ) - t| := by rw [abs_sub_comm t]

theorem abs_sub_le_of_abs_sub_le_half (h : |(m : ℚ) - t| ≤ 1 / 2) (k : Nat) :
    |(m : ℚ) - t| ≤ |(k : ℚ) - t| := by
  rcases eq_or_ne k m with rfl | hne
  · exact le_rfl
  · have hone := one_le_abs_sub_add_of_ne hne t
    linarith

namespace Binary64

variable {code : Nat}

/-! ## The nearest code -/

/-- The code is nearest to a number of units, and it is the even one of two nearest codes. -/
structure IsNearestCode (code : Nat) (t : ℚ) : Prop where
  abs_sub_le : ∀ other, |(unitsOfCode code : ℚ) - t| ≤ |(unitsOfCode other : ℚ) - t|
  even_of_tie : ∀ other, |(unitsOfCode other : ℚ) - t| = |(unitsOfCode code : ℚ) - t| →
    other ≠ code → code % 2 = 0

/-- The nearest code lies beyond an even code just if the number lies beyond the middle between
that code and the next. -/
theorem IsNearestCode.le_iff (h : IsNearestCode code t) (heven : k % 2 = 0) :
    code ≤ k ↔ 2 * t ≤ unitsOfCode k + unitsOfCode (k + 1) := by
  have hstep : (unitsOfCode k : ℚ) < unitsOfCode (k + 1) :=
    Nat.cast_lt.mpr (unitsOfCode_strictMono (Nat.lt_succ_self k))
  constructor
  · intro hle
    -- Beyond the middle the next code would be nearer.
    by_contra hmiddle
    rw [not_le] at hmiddle
    have hcode : (unitsOfCode code : ℚ) ≤ unitsOfCode k :=
      Nat.cast_le.mpr (unitsOfCode_strictMono.monotone hle)
    have hnearer := h.abs_sub_le (k + 1)
    have hnext : |(unitsOfCode (k + 1) : ℚ) - t| < t - unitsOfCode k := by
      rw [abs_lt]
      constructor
      · linarith
      · linarith
    have hfar := neg_le_abs ((unitsOfCode code : ℚ) - t)
    linarith
  · intro hmiddle
    -- Up to the middle a code above `k` is as near only in the middle itself, and then it is odd.
    by_contra hlt
    rw [not_le] at hlt
    have hcode : (unitsOfCode (k + 1) : ℚ) ≤ unitsOfCode code :=
      Nat.cast_le.mpr (unitsOfCode_strictMono.monotone hlt)
    have hnearer := h.abs_sub_le k
    have hk : |(unitsOfCode k : ℚ) - t| ≤ unitsOfCode (k + 1) - t := by
      rw [abs_le]
      constructor
      · linarith
      · linarith
    have hfar := le_abs_self ((unitsOfCode code : ℚ) - t)
    have htie : |(unitsOfCode k : ℚ) - t| = |(unitsOfCode code : ℚ) - t| := by linarith
    have hsame : (unitsOfCode code : ℚ) = unitsOfCode (k + 1) := by linarith
    obtain rfl := unitsOfCode_strictMono.injective (Nat.cast_injective hsame)
    have hodd := h.even_of_tie k htie (Nat.lt_succ_self k).ne
    omega

theorem IsNearestCode.le_of_le (h : IsNearestCode code t) (hk : (unitsOfCode k : ℚ) ≤ t) :
    k ≤ code := by
  by_contra hlt
  rw [not_le] at hlt
  have hcode : (unitsOfCode code : ℚ) < unitsOfCode k :=
    Nat.cast_lt.mpr (unitsOfCode_strictMono hlt)
  have hnearer := h.abs_sub_le k
  rw [abs_of_nonpos (by linarith), abs_of_nonpos (by linarith)] at hnearer
  linarith

theorem isNearestCode_zero (hnonneg : 0 ≤ t) (h : 2 * t < 1) : IsNearestCode 0 t := by
  have hzero : unitsOfCode 0 = 0 := unitsOfCode_of_lt binade_pos
  have hnearer : ∀ other, other ≠ 0 →
      |(unitsOfCode 0 : ℚ) - t| < |(unitsOfCode other : ℚ) - t| := by
    intro other hother
    have hpos := unitsOfCode_strictMono (Nat.pos_of_ne_zero hother)
    rw [hzero] at hpos
    have hone : (1 : ℚ) ≤ unitsOfCode other := by exact_mod_cast hpos
    have hfar := le_abs_self ((unitsOfCode other : ℚ) - t)
    rw [hzero, Nat.cast_zero, zero_sub, abs_neg, abs_of_nonneg hnonneg]
    linarith
  constructor
  · intro other
    rcases eq_or_ne other 0 with rfl | hother
    · exact le_rfl
    · exact (hnearer other hother).le
  · intro other htie hother
    exact absurd htie (hnearer other hother).ne'

theorem abs_mul_two_pow_sub (k shift : Nat) (t : ℚ) :
    |((k * 2 ^ shift : Nat) : ℚ) - t * 2 ^ shift| = |(k : ℚ) - t| * 2 ^ shift := by
  have hpow : (0 : ℚ) < 2 ^ shift := by positivity
  push_cast
  rw [← sub_mul, abs_mul, abs_of_pos hpow]

/-- A number that is rounded in a binade is not as near to any smaller one. -/
theorem abs_sub_mul_two_pow_lt {shift digits : Nat} {u : ℚ} (hu : u < binade * 2 ^ shift)
    (hlarge : (binade : ℚ) ≤ t) (hdigits : |(digits : ℚ) - t| ≤ 1 / 2) :
    |(digits : ℚ) - t| * 2 ^ shift < |u - t * 2 ^ shift| := by
  have hnearest : |(digits : ℚ) - t| ≤ t - binade := by
    have hle := abs_sub_le_of_abs_sub_le_half hdigits binade
    rwa [abs_of_nonpos (sub_nonpos.mpr hlarge), neg_sub] at hle
  calc |(digits : ℚ) - t| * 2 ^ shift
      ≤ (t - binade) * 2 ^ shift := mul_le_mul_of_nonneg_right hnearest (by positivity)
    _ = t * 2 ^ shift - binade * 2 ^ shift := sub_mul _ _ _
    _ < t * 2 ^ shift - u := by linarith
    _ ≤ |u - t * 2 ^ shift| := by
      rw [abs_sub_comm]
      exact le_abs_self _

/-- Rounded to 53 significant digits, a number gets the nearest code: other codes stand for
multiples of the last digit, which compare as integers do, or for smaller numbers. -/
theorem isNearestCode_of_digits {shift digits : Nat} (hle : digits ≤ 2 * binade)
    (hge : shift = 0 ∨ binade ≤ digits) (hlarge : 0 < shift → (binade : ℚ) ≤ t)
    (hdigits : |(digits : ℚ) - t| ≤ 1 / 2)
    (htie : |(digits : ℚ) - t| = 1 / 2 → digits % 2 = 0) :
    IsNearestCode (shift * binade + digits) (t * 2 ^ shift) := by
  have hpow : (0 : ℚ) < 2 ^ shift := by positivity
  have hcode := unitsOfCode_mul_binade_add hle hge
  have hparity : (shift * binade + digits) % 2 = digits % 2 := by
    rw [Nat.add_mod, Nat.mul_mod]
    simp [binade]
  have hsmaller : ∀ other, 0 < shift → unitsOfCode other < binade * 2 ^ shift →
      |(unitsOfCode (shift * binade + digits) : ℚ) - t * 2 ^ shift| <
        |(unitsOfCode other : ℚ) - t * 2 ^ shift| := by
    intro other hshift hother
    rw [hcode, abs_mul_two_pow_sub]
    exact abs_sub_mul_two_pow_lt (by exact_mod_cast hother) (hlarge hshift) hdigits
  constructor
  · intro other
    rcases dvd_unitsOfCode_or_lt shift other with ⟨k, hk⟩ | ⟨hshift, hother⟩
    · rw [hcode, hk, Nat.mul_comm _ k, abs_mul_two_pow_sub, abs_mul_two_pow_sub]
      exact mul_le_mul_of_nonneg_right (abs_sub_le_of_abs_sub_le_half hdigits k) hpow.le
    · exact (hsmaller other hshift hother).le
  · intro other hsame hne
    rcases dvd_unitsOfCode_or_lt shift other with ⟨k, hk⟩ | ⟨hshift, hother⟩
    · rw [hcode, hk, Nat.mul_comm _ k, abs_mul_two_pow_sub, abs_mul_two_pow_sub] at hsame
      have hdistance := mul_right_cancel₀ hpow.ne' hsame
      have hk : k ≠ digits := by
        rintro rfl
        rw [Nat.mul_comm, ← hcode] at hk
        exact hne (unitsOfCode_strictMono.injective hk)
      have hone := one_le_abs_sub_add_of_ne hk t
      rw [hparity]
      exact htie (by linarith)
    · exact absurd hsame (hsmaller other hshift hother).ne'

/-! ## Codes of quotients -/

/-- In units of its last digit a quotient has no more than 53 digits before the point. -/
theorem lt_mul_two_mul_binade (num : Nat) (hden : 0 < den) :
    num < den * 2 ^ (Nat.log2 (num / den) - 52) * (2 * binade) := by
  have hquotient : num / den < 2 ^ (Nat.log2 (num / den) - 52) * (2 * binade) :=
    calc num / den < 2 ^ (Nat.log2 (num / den) + 1) := Nat.lt_log2_self
      _ ≤ 2 ^ (Nat.log2 (num / den) - 52 + 53) := Nat.pow_le_pow_right (by decide) (by omega)
      _ = 2 ^ (Nat.log2 (num / den) - 52) * (2 * binade) := by
        rw [binade_eq]
        ring
  rw [Nat.mul_assoc]
  exact (Nat.div_lt_iff_lt_mul hden).mp hquotient |>.trans_eq (Nat.mul_comm _ _)

/-- And where it loses digits it has as many. -/
theorem mul_binade_le (h : 0 < Nat.log2 (num / den) - 52) :
    den * 2 ^ (Nat.log2 (num / den) - 52) * binade ≤ num := by
  have hne : num / den ≠ 0 := by
    intro hzero
    rw [hzero] at h
    revert h
    decide
  have hquotient : 2 ^ (Nat.log2 (num / den) - 52) * binade ≤ num / den :=
    calc 2 ^ (Nat.log2 (num / den) - 52) * binade = 2 ^ (Nat.log2 (num / den) - 52 + 52) := by
          rw [binade_eq, ← Nat.pow_add]
      _ = 2 ^ Nat.log2 (num / den) := by rw [Nat.sub_add_cancel (by omega)]
      _ ≤ num / den := Nat.log2_self_le hne
  rw [Nat.mul_assoc]
  exact (Nat.mul_le_mul_left den hquotient).trans (Nat.mul_div_le num den)

/-- Before it is limited to that of infinity, the code of a quotient is nearest to it. -/
theorem exists_isNearestCode (num : Nat) (hden : 0 < den) :
    ∃ code, IsNearestCode code (num / den) ∧ nearestCode num den = min code infinityCode := by
  refine ⟨_, ?_, rfl⟩
  have hhigh := lt_mul_two_mul_binade num hden
  have hlow := @mul_binade_le num den
  simp only [Nat.pow_eq]
  generalize Nat.log2 (num / den) - 52 = shift at hhigh hlow ⊢
  have hscale : 0 < den * 2 ^ shift := Nat.mul_pos hden (Nat.two_pow_pos shift)
  have hquotient : (num / den : ℚ) = num / (den * 2 ^ shift : Nat) * 2 ^ shift := by
    have hden' : (den : ℚ) ≠ 0 := Nat.cast_ne_zero.mpr hden.ne'
    push_cast
    field_simp
  rw [hquotient]
  refine isNearestCode_of_digits (roundHalfEven_le hscale hhigh.le) ?_ ?_
    (abs_roundHalfEven_sub_le hscale) (even_of_abs_roundHalfEven_sub_eq hscale)
  · rcases Nat.eq_zero_or_pos shift with hzero | hpos
    · exact Or.inl hzero
    · exact Or.inr (le_roundHalfEven hscale (hlow hpos))
  · intro hpos
    rw [le_div_iff₀ (Nat.cast_pos.mpr hscale), mul_comm]
    exact_mod_cast hlow hpos

/-! ## Codes of decimal numbers -/

theorem two_pow_le_ten_pow {a n : Nat} (h : a ≤ 3 * n) : 2 ^ a ≤ 10 ^ n :=
  calc 2 ^ a ≤ 2 ^ (3 * n) := Nat.pow_le_pow_right (by decide) h
    _ = (2 ^ 3) ^ n := Nat.pow_mul 2 3 n
    _ ≤ 10 ^ n := Nat.pow_le_pow_left (by decide) n

variable {coefficient : Nat} {exponent : Int}

/-- A large exponent takes the number beyond all that have a code. -/
theorem unitsOfCode_infinityCode_le (hpos : 0 < coefficient) (h : 400 < exponent) :
    (unitsOfCode infinityCode : ℚ) ≤ coefficient * 10 ^ exponent * unitsPerOne := by
  obtain ⟨n, rfl⟩ := Int.eq_ofNat_of_zero_le (by omega : 0 ≤ exponent)
  have hpow : 2 ^ 1024 ≤ coefficient * 10 ^ n :=
    (two_pow_le_ten_pow (by omega)).trans (Nat.le_mul_of_pos_left _ hpos)
  rw [unitsOfCode_infinityCode, zpow_natCast]
  exact_mod_cast Nat.mul_le_mul_right unitsPerOne hpow

/-- A small one leaves less than half of the smallest number. -/
theorem two_mul_units_lt_one (h : exponent + Nat.log2 coefficient + 1 < -400) :
    2 * (coefficient * 10 ^ exponent * unitsPerOne : ℚ) < 1 := by
  obtain ⟨n, hn⟩ := Int.eq_ofNat_of_zero_le
    (by omega : 0 ≤ -exponent - (Nat.log2 coefficient + 1 : Nat))
  generalize hlength : Nat.log2 coefficient + 1 = length at hn
  have hexponent : exponent = -(n : Int) - length := by omega
  have hcoefficient : (coefficient : ℚ) < 10 ^ length := by
    have hlt : coefficient < 10 ^ length := by
      rw [← hlength]
      exact Nat.lt_log2_self.trans_le (Nat.pow_le_pow_left (by decide) _)
    exact_mod_cast hlt
  have hunits : (2 * unitsPerOne : ℚ) ≤ 10 ^ n := by
    have hle : 2 * unitsPerOne ≤ 10 ^ n := by
      rw [two_mul_unitsPerOne_eq]
      exact two_pow_le_ten_pow (by omega)
    exact_mod_cast hle
  calc 2 * (coefficient * 10 ^ exponent * unitsPerOne : ℚ)
      = coefficient / 10 ^ length * (2 * unitsPerOne / 10 ^ n) := by
        rw [hexponent, zpow_sub₀ (by decide), zpow_neg, zpow_natCast, zpow_natCast]
        ring
    _ < 1 := by
      apply mul_lt_one_of_nonneg_of_lt_one_left
      · positivity
      · rw [div_lt_one (by positivity)]
        exact hcoefficient
      · rw [div_le_one (by positivity)]
        exact hunits

theorem exists_isNearestCode_of_nonneg (coefficient : Nat) (h : 0 ≤ exponent) :
    ∃ code, IsNearestCode code (coefficient * 10 ^ exponent * unitsPerOne) ∧
      nearestCode (coefficient * Nat.pow 10 exponent.toNat * unitsPerOne) 1 =
        min code infinityCode := by
  obtain ⟨n, rfl⟩ := Int.eq_ofNat_of_zero_le h
  obtain ⟨code, hcode, hnearest⟩ :=
    exists_isNearestCode (coefficient * 10 ^ n * unitsPerOne) Nat.one_pos
  refine ⟨code, ?_, hnearest⟩
  rw [Nat.cast_one, div_one, Nat.cast_mul, Nat.cast_mul, Nat.cast_pow, Nat.cast_ofNat] at hcode
  rw [zpow_natCast]
  exact hcode

theorem exists_isNearestCode_of_neg (coefficient : Nat) (h : exponent < 0) :
    ∃ code, IsNearestCode code (coefficient * 10 ^ exponent * unitsPerOne) ∧
      nearestCode (coefficient * unitsPerOne) (Nat.pow 10 (-exponent).toNat) =
        min code infinityCode := by
  obtain ⟨n, hn⟩ := Int.eq_ofNat_of_zero_le (by omega : 0 ≤ -exponent)
  obtain rfl : exponent = -(n : Int) := by omega
  obtain ⟨code, hcode, hnearest⟩ := exists_isNearestCode (coefficient * unitsPerOne)
    (Nat.pow_pos (by decide : 0 < 10) (n := n))
  refine ⟨code, ?_, ?_⟩
  · have hquotient : (coefficient * 10 ^ (-(n : Int)) * unitsPerOne : ℚ) =
        (coefficient * unitsPerOne : Nat) / (10 ^ n : Nat) := by
      rw [zpow_neg, zpow_natCast]
      push_cast
      ring
    rw [hquotient]
    exact hcode
  · rw [neg_neg, Int.toNat_natCast]
    exact hnearest

/-- The magnitude of a decimal number is the code that is nearest to it, or that of infinity if
there is none so high. -/
theorem exists_isNearestCode_ofDecimal (negative : Bool) (coefficient : Nat) (exponent : Int) :
    ∃ code, IsNearestCode code (coefficient * 10 ^ exponent * unitsPerOne) ∧
      (ofDecimal negative coefficient exponent).magnitude = min code infinityCode := by
  unfold ofDecimal
  split
  next hzero =>
    have hunits : (coefficient * 10 ^ exponent * unitsPerOne : ℚ) = 0 := by
      rw [hzero, Nat.cast_zero, zero_mul, zero_mul]
    rw [hunits]
    exact ⟨0, isNearestCode_zero le_rfl (by norm_num), rfl⟩
  next hne =>
    split
    next hlarge =>
      obtain ⟨code, hcode, -⟩ := exists_isNearestCode_of_nonneg coefficient
        (by omega : 0 ≤ exponent)
      have hle := hcode.le_of_le (unitsOfCode_infinityCode_le (Nat.pos_of_ne_zero hne) hlarge)
      exact ⟨code, hcode, (Nat.min_eq_right hle).symm⟩
    next =>
      split
      next hsmall =>
        have hnonneg := mul_nonneg (by positivity : (0 : ℚ) ≤ coefficient * 10 ^ exponent)
          unitsPerOne_pos.le
        exact ⟨0, isNearestCode_zero hnonneg (two_mul_units_lt_one hsmall), rfl⟩
      next =>
        split
        next hnonneg => exact exists_isNearestCode_of_nonneg coefficient hnonneg
        next hneg => exact exists_isNearestCode_of_neg coefficient (not_le.mp hneg)

end Binary64

end Pinfall.Number
