import Pinfall.Proofs.Number.Nearest

/-!
# The values of decimal numbers

A decimal number with a sign is read as the nearest double-precision number with this sign.  The
test for the unit interval is made on the latter, so that it also passes decimal numbers that are
beyond the ends of the interval by no more than half the distance to the next double-precision
number.
-/

namespace Pinfall.Number.Binary64

variable {x : Binary64} {code : Nat} {t v w : ℚ}

/-- The factor that a sign stands for. -/
def sign (negative : Bool) : ℚ := if negative then -1 else 1

/-- The finite number has the value `v`, no finite number is nearer to `d`, and the code of the
number is even if a finite number of another value is as near. -/
structure IsNearest (x : Binary64) (v d : ℚ) : Prop where
  value?_eq : x.value? = some v
  abs_sub_le : ∀ y w, value? y = some w → |v - d| ≤ |w - d|
  even_of_tie : ∀ y w, value? y = some w → |w - d| = |v - d| → w ≠ v → x.magnitude % 2 = 0

/-- The number is in the unit interval, or beyond an end of it by no more than half the way to
the next double-precision number. -/
def IsNearUnitInterval (d : ℚ) : Prop := -(1 / 2 ^ 1075) ≤ d ∧ d ≤ 1 + 1 / 2 ^ 53

/-! ## Signs -/

theorem value?_eq_some_iff : x.value? = some v ↔ x.isFinite = true ∧
    v = sign x.negative * unitsOfCode x.magnitude / unitsPerOne := by
  unfold value? units? sign
  generalize (unitsPerOne : ℚ) = one
  cases x.isFinite with
  | false => simp
  | true =>
    cases x.negative with
    | false => simp [eq_comm]
    | true => simp [eq_comm]

theorem abs_sign (negative : Bool) : |sign negative| = 1 := by
  cases negative with
  | false => exact abs_one
  | true => exact (abs_neg 1).trans abs_one

/-- Numbers of one sign are as far from each other as their magnitudes are. -/
theorem abs_sign_mul_sub (negative : Bool) (u t : ℚ) :
    |sign negative * u - sign negative * t| = |u - t| := by
  rw [← mul_sub, abs_mul, abs_sign, one_mul]

/-- Numbers of different signs are as far from each other as their magnitudes together. -/
theorem abs_sign_mul_sub_of_ne {negative other : Bool} (hne : other ≠ negative) {u t : ℚ}
    (hu : 0 ≤ u) (ht : 0 ≤ t) : |sign other * u - sign negative * t| = u + t := by
  obtain rfl : other = !negative := Bool.eq_not.mpr hne
  have hsum : sign (!negative) * u - sign negative * t = -sign negative * (u + t) := by
    cases negative with
    | false =>
      simp only [sign, Bool.not_false, if_pos, Bool.false_eq_true, if_false]
      ring
    | true =>
      simp only [sign, Bool.not_true, if_pos, Bool.false_eq_true, if_false]
      ring
  rw [hsum, abs_mul, abs_neg, abs_sign, one_mul, abs_of_nonneg (add_nonneg hu ht)]

theorem abs_sub_le_abs_sign_mul_sub (negative other : Bool) {u t : ℚ} (hu : 0 ≤ u) (ht : 0 ≤ t) :
    |u - t| ≤ |sign other * u - sign negative * t| := by
  by_cases hsame : other = negative
  · rw [hsame, abs_sign_mul_sub]
  · rw [abs_sign_mul_sub_of_ne hsame hu ht, abs_le]
    constructor
    · linarith
    · linarith

/-- A nearest code is not as near with the other sign, unless it is that of zero. -/
theorem IsNearestCode.unitsOfCode_eq_zero (h : IsNearestCode code t)
    (htie : unitsOfCode code + t = |(unitsOfCode code : ℚ) - t|) :
    (unitsOfCode code : ℚ) = 0 := by
  rcases eq_or_eq_neg_of_abs_eq htie.symm with habove | hbelow
  · have hzero : unitsOfCode 0 = 0 := unitsOfCode_of_lt binade_pos
    have hnearer := h.abs_sub_le 0
    have ht : t = 0 := by linarith
    rw [hzero, ht, Nat.cast_zero, sub_zero, sub_zero, abs_zero] at hnearer
    exact abs_nonpos_iff.mp hnearer
  · linarith

/-- A finite number is nearest if its magnitude is, and its sign is right. -/
theorem isNearest_of_isNearestCode (hfinite : x.isFinite = true) (ht : 0 ≤ t)
    (h : IsNearestCode x.magnitude t) :
    ∃ v, IsNearest x v (sign x.negative * t / unitsPerOne) := by
  have hscale : ∀ y w, value? y = some w → |w - sign x.negative * t / unitsPerOne| =
      |sign y.negative * unitsOfCode y.magnitude - sign x.negative * t| / unitsPerOne := by
    intro y w hw
    rw [(value?_eq_some_iff.mp hw).2, ← sub_div, abs_div, abs_of_pos unitsPerOne_pos]
  have hvalue := value?_eq_some_iff.mpr ⟨hfinite, rfl⟩
  refine ⟨_, hvalue, ?_, ?_⟩
  · intro y w hw
    rw [hscale x _ hvalue, hscale y w hw, div_le_div_iff_of_pos_right unitsPerOne_pos,
      abs_sign_mul_sub]
    exact (h.abs_sub_le y.magnitude).trans
      (abs_sub_le_abs_sign_mul_sub x.negative y.negative (Nat.cast_nonneg _) ht)
  · intro y w hw htie hne
    rw [hscale x _ hvalue, hscale y w hw, div_left_inj' unitsPerOne_pos.ne',
      abs_sign_mul_sub] at htie
    by_cases hcode : y.magnitude = x.magnitude
    -- The same magnitude with the other sign is another number only if it is not zero.
    · have hw := (value?_eq_some_iff.mp hw).2
      rw [hcode] at hw htie
      have hsign : y.negative ≠ x.negative := by
        intro hsame
        exact hne (by rw [hw, hsame])
      rw [abs_sign_mul_sub_of_ne hsign (Nat.cast_nonneg _) ht] at htie
      rw [h.unitsOfCode_eq_zero htie, mul_zero, zero_div] at hw
      rw [hw, h.unitsOfCode_eq_zero htie, mul_zero, zero_div] at hne
      exact absurd rfl hne
    · have hle := abs_sub_le_abs_sign_mul_sub x.negative y.negative
        (Nat.cast_nonneg (unitsOfCode y.magnitude)) ht
      rw [htie] at hle
      exact h.even_of_tie y.magnitude (le_antisymm hle (h.abs_sub_le y.magnitude)) hcode

/-! ## The unit interval -/

/-- The numbers in the interval are those with codes up to that of one, and zero with a sign. -/
theorem inUnitInterval_iff_le (h : x.magnitude = min code infinityCode) :
    x.inUnitInterval = true ↔ code ≤ if x.negative then 0 else oneCode := by
  have hone : oneCode < infinityCode := by decide
  rw [inUnitInterval_iff]
  rcases Nat.lt_or_ge code infinityCode with hlt | hge
  · rw [Nat.min_eq_left hlt.le] at h
    have hfinite : x.isFinite = true := decide_eq_true (h ▸ hlt)
    have hvalue := value?_eq_some_iff.mpr ⟨hfinite, rfl⟩
    have hnonneg : (0 : ℚ) ≤ unitsOfCode code / unitsPerOne :=
      div_nonneg (Nat.cast_nonneg _) unitsPerOne_pos.le
    rw [hvalue, h]
    simp only [Option.some.injEq, exists_eq_left']
    cases x.negative with
    | false =>
      rw [if_neg Bool.false_ne_true, ← unitsOfCode_strictMono.le_iff_le, unitsOfCode_oneCode,
        ← Nat.cast_le (α := ℚ), ← div_le_one unitsPerOne_pos, sign, if_neg Bool.false_ne_true,
        one_mul]
      exact and_iff_right hnonneg
    | true =>
      have hzero : unitsOfCode 0 = 0 := unitsOfCode_of_lt binade_pos
      have hnegative : sign true * unitsOfCode code / unitsPerOne =
          -(unitsOfCode code / unitsPerOne : ℚ) := by
        rw [sign, if_pos rfl]
        ring
      rw [if_pos rfl, ← unitsOfCode_strictMono.le_iff_le, hzero, hnegative, neg_nonneg,
        div_le_iff₀ unitsPerOne_pos, zero_mul]
      constructor
      · rintro ⟨hle, -⟩
        exact_mod_cast hle
      · intro hle
        refine ⟨by exact_mod_cast hle, ?_⟩
        linarith
  · have hinfinite : x.isFinite = false := by
      rw [isFinite, h, Nat.min_eq_right hge]
      exact decide_eq_false (lt_irrefl _)
    constructor
    · rintro ⟨rate, hrate, -⟩
      rw [(value?_eq_some_iff.mp hrate).1] at hinfinite
      contradiction
    · intro hle
      split at hle
      next => omega
      next => omega

/-! ## Decimal numbers -/

@[simp] theorem negative_ofDecimal (negative : Bool) (coefficient : Nat) (exponent : Int) :
    (ofDecimal negative coefficient exponent).negative = negative := by
  unfold ofDecimal
  split
  · rfl
  · split
    · rfl
    · split
      · rfl
      · split
        · rfl
        · rfl

/-- A decimal number that is read as a finite one is read as the nearest. -/
theorem isNearest_ofDecimal {negative : Bool} {coefficient : Nat} {exponent : Int}
    (hfinite : (ofDecimal negative coefficient exponent).isFinite = true) :
    ∃ v, IsNearest (ofDecimal negative coefficient exponent) v
      (sign negative * (coefficient * 10 ^ exponent)) := by
  obtain ⟨code, hcode, hmagnitude⟩ :=
    exists_isNearestCode_ofDecimal negative coefficient exponent
  have hnonneg : (0 : ℚ) ≤ coefficient * 10 ^ exponent * unitsPerOne :=
    mul_nonneg (by positivity) unitsPerOne_pos.le
  have hlt : (ofDecimal negative coefficient exponent).magnitude < infinityCode :=
    of_decide_eq_true hfinite
  have hsame : (ofDecimal negative coefficient exponent).magnitude = code := by
    omega
  rw [← hsame] at hcode
  obtain ⟨v, hv⟩ := isNearest_of_isNearestCode hfinite hnonneg hcode
  rw [negative_ofDecimal, ← mul_assoc, mul_div_cancel_right₀ _ unitsPerOne_pos.ne'] at hv
  exact ⟨v, hv⟩

/-- The middle between one and the next number. -/
theorem two_mul_le_unitsOfCode_oneCode_iff (d : ℚ) :
    2 * (d * unitsPerOne) ≤ unitsOfCode oneCode + unitsOfCode (oneCode + 1) ↔
      d ≤ 1 + 1 / 2 ^ 53 := by
  have hbinade : (binade : ℚ) = 2 ^ 52 := by
    rw [binade_eq]
    norm_num
  have hunits : (unitsPerOne : ℚ) = 2 ^ 52 * (2 ^ 1022 : Nat) := by
    rw [unitsPerOne_eq, Nat.cast_mul, hbinade]
  have hpow : ∀ n, (0 : ℚ) < (2 ^ n : Nat) := fun n => Nat.cast_pos.mpr (Nat.two_pow_pos n)
  have hstep := hpow 1022
  rw [unitsOfCode_oneCode, unitsOfCode_oneCode_add_one, Nat.cast_add, hunits]
  generalize ((2 ^ 1022 : Nat) : ℚ) = step at hstep ⊢
  have hmiddle : 1 + 1 / 2 ^ 53 =
      (2 ^ 52 * step + (2 ^ 52 * step + step)) / (2 * (2 ^ 52 * step)) := by
    field_simp
    ring
  rw [hmiddle, le_div_iff₀ (by positivity), mul_left_comm]

/-- The middle between zero and the next number. -/
theorem two_mul_le_unitsOfCode_zero_iff (d : ℚ) :
    2 * (d * unitsPerOne) ≤ unitsOfCode 0 + unitsOfCode (0 + 1) ↔ d ≤ 1 / 2 ^ 1075 := by
  have hcast : ∀ n, ((2 ^ n : Nat) : ℚ) = 2 ^ n := by
    intro n
    push_cast
    rfl
  have hunits : (2 ^ 1075 : ℚ) = 2 * unitsPerOne := by
    rw [← hcast, ← two_mul_unitsPerOne_eq, Nat.cast_mul, Nat.cast_two]
  have hzero : unitsOfCode 0 = 0 := unitsOfCode_of_lt binade_pos
  have hone : unitsOfCode (0 + 1) = 1 := unitsOfCode_of_lt (by decide)
  rw [hzero, hone, hunits, le_div_iff₀ (mul_pos two_pos unitsPerOne_pos), mul_left_comm,
    Nat.cast_zero, Nat.cast_one, zero_add]

theorem isNearUnitInterval_iff_of_nonneg {d : ℚ} (hd : 0 ≤ d) :
    IsNearUnitInterval d ↔ d ≤ 1 + 1 / 2 ^ 53 := by
  have hend : (0 : ℚ) ≤ 1 / 2 ^ 1075 := div_nonneg zero_le_one (pow_nonneg zero_le_two _)
  exact and_iff_right ((neg_nonpos.mpr hend).trans hd)

theorem isNearUnitInterval_neg_iff {d : ℚ} (hd : 0 ≤ d) :
    IsNearUnitInterval (-d) ↔ d ≤ 1 / 2 ^ 1075 := by
  have hend : -d ≤ 1 + 1 / 2 ^ 53 := (neg_nonpos.mpr hd).trans (by positivity)
  rw [IsNearUnitInterval, neg_le_neg_iff]
  exact and_iff_left hend

/-- Negative numbers pass the test for the unit interval if they are read as zero, and numbers
above one if they are read as one. -/
theorem inUnitInterval_ofDecimal_iff (negative : Bool) (coefficient : Nat) (exponent : Int) :
    (ofDecimal negative coefficient exponent).inUnitInterval = true ↔
      IsNearUnitInterval (sign negative * (coefficient * 10 ^ exponent)) := by
  obtain ⟨code, hcode, hmagnitude⟩ :=
    exists_isNearestCode_ofDecimal negative coefficient exponent
  have hnonneg : (0 : ℚ) ≤ coefficient * 10 ^ exponent := by positivity
  rw [inUnitInterval_iff_le hmagnitude, negative_ofDecimal]
  generalize (coefficient * 10 ^ exponent : ℚ) = d at hcode hnonneg ⊢
  cases negative with
  | false =>
    rw [if_neg Bool.false_ne_true, hcode.le_iff (by decide), two_mul_le_unitsOfCode_oneCode_iff,
      sign, if_neg Bool.false_ne_true, one_mul, isNearUnitInterval_iff_of_nonneg hnonneg]
  | true =>
    rw [if_pos rfl, hcode.le_iff (by decide), two_mul_le_unitsOfCode_zero_iff, sign, if_pos rfl,
      neg_one_mul, isNearUnitInterval_neg_iff hnonneg]

end Pinfall.Number.Binary64
