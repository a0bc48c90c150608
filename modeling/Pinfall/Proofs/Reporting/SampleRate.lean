import Pinfall.Proofs.Number.DecimalValue
import Pinfall.Proofs.Number.Literal
import Pinfall.Proofs.Reporting.Start

/-!
# Which rate a setting asks for

A decimal literal asks for the nearest double-precision number, if that lies between zero and
one; it does so just when the literal itself is in this interval or a little beyond it.  Any
other literal and the words for infinity and for what is no number are outside, and all other
texts are no numbers, which is what the warning says.  Without a text, or if it is blank, nothing
is asked for.
-/

namespace Pinfall.Reporting

open Number

variable {name raw : String} {default : Binary64} {decimal : Decimal} {negative : Bool} {d : ℚ}

/-! ## The warnings -/

theorem rateWarning_notANumber (name raw : String) (default : Binary64) :
    rateWarning name raw .notANumber default = ⟨.warning, .settings,
      name ++ "=" ++ Text.quoted raw ++ " is not a number; using " ++ default.fixedTwo⟩ := by
  have htext : (" is not a number; using " : String) =
      " " ++ ("is not a number" ++ "; using ") := by
    decide
  rw [htext, ← String.append_assoc, ← String.append_assoc]
  rfl

theorem rateWarning_outsideRange (name raw : String) (default : Binary64) :
    rateWarning name raw .outsideRange default = ⟨.warning, .settings,
      name ++ "=" ++ Text.quoted raw ++ " is outside [0, 1]; using " ++ default.fixedTwo⟩ := by
  have htext : (" is outside [0, 1]; using " : String) =
      " " ++ ("is outside [0, 1]" ++ "; using ") := by
    decide
  rw [htext, ← String.append_assoc, ← String.append_assoc]
  rfl

/-! ## The readings -/

theorem readRate_of_isAllBlank (h : Text.isAllBlank raw = true) :
    readRate name (some raw) default = (default, []) := if_pos h

theorem readRate_of_error {error : RateError} (hblank : Text.isAllBlank raw = false)
    (h : rateOf raw = .error error) :
    readRate name (some raw) default = (default, [rateWarning name raw error default]) := by
  simp only [readRate, hblank, h]
  rfl

theorem readRate_of_ok {rate : Binary64} (hblank : Text.isAllBlank raw = false)
    (h : rateOf raw = .ok rate) : readRate name (some raw) default = (rate, []) := by
  simp only [readRate, hblank, h]
  rfl

theorem isAllBlank_eq_false_of_exists (h : ∃ c ∈ raw.toList, Text.isBlank c = false) :
    Text.isAllBlank raw = false := by
  obtain ⟨c, hc, hblank⟩ := h
  rw [Text.isAllBlank, List.all_eq_false]
  exact ⟨c, hc, by simp [hblank]⟩

theorem rateOf_of_read?_eq_some (h : Decimal.read? .unicode raw.toList = some decimal) :
    rateOf raw = if decimal.toBinary64.inUnitInterval then .ok decimal.toBinary64
      else .error .outsideRange := by
  simp only [rateOf, readBinary64, h, Option.map_some]

theorem rateOf_of_read?_eq_none (h : Decimal.read? .unicode raw.toList = none) :
    rateOf raw = .error .notANumber := by
  simp only [rateOf, readBinary64, h, Option.map_none]

/-- The words are outside of the interval. -/
theorem rateOf_of_spellsWord (h : SpellsWord .unicode raw.toList) :
    rateOf raw = .error .outsideRange := by
  obtain ⟨negative, hread | hread⟩ := spellsWord_iff.mp h
  · rw [rateOf_of_read?_eq_some hread]
    cases negative with
    | false => rfl
    | true => rfl
  · rw [rateOf_of_read?_eq_some hread]
    cases negative with
    | false => rfl
    | true => rfl

/-- A literal in the interval or a little beyond it asks for the nearest number. -/
theorem rateOf_of_spellsDecimal (h : SpellsDecimal .unicode raw.toList negative d)
    (hinside : Binary64.IsNearUnitInterval (Binary64.sign negative * d)) :
    ∃ rate v, rateOf raw = .ok rate ∧ rate.negative = negative ∧
      rate.IsNearest v (Binary64.sign negative * d) := by
  obtain ⟨coefficient, exponent, hread, rfl⟩ := spellsDecimal_iff.mp h
  have hrate := (Binary64.inUnitInterval_ofDecimal_iff negative coefficient exponent).mpr hinside
  obtain ⟨v, hv, -⟩ := Binary64.inUnitInterval_iff.mp hrate
  obtain ⟨v, hnearest⟩ := Binary64.isNearest_ofDecimal (Binary64.value?_eq_some_iff.mp hv).1
  refine ⟨_, v, ?_, Binary64.negative_ofDecimal negative coefficient exponent, hnearest⟩
  rw [rateOf_of_read?_eq_some hread]
  exact if_pos hrate

/-- Any other literal asks for nothing. -/
theorem rateOf_of_spellsDecimal_outside (h : SpellsDecimal .unicode raw.toList negative d)
    (houtside : ¬Binary64.IsNearUnitInterval (Binary64.sign negative * d)) :
    rateOf raw = .error .outsideRange := by
  obtain ⟨coefficient, exponent, hread, rfl⟩ := spellsDecimal_iff.mp h
  rw [rateOf_of_read?_eq_some hread]
  exact if_neg ((Binary64.inUnitInterval_ofDecimal_iff negative coefficient exponent).not.mpr
    houtside)

/-- What a setting asks for is a rate from zero to one whatever it holds, if the default is one.
Nothing is asked for without a text or by a blank one.  A literal asks for the nearest number,
with the sign that is written, just if it lies between the middles beyond zero and one.  In all
other cases the default is taken with one warning, which says whether the text is a number. -/
theorem readRate_decides (name : String) {default : Binary64}
    (hdefault : ∃ v, default.value? = some v ∧ 0 ≤ v ∧ v ≤ 1) :
    (∀ raw, ∃ v, (readRate name raw default).1.value? = some v ∧ 0 ≤ v ∧ v ≤ 1) ∧
    readRate name none default = (default, []) ∧
    ∀ raw : String,
      (Text.isAllBlank raw = true → readRate name (some raw) default = (default, [])) ∧
      (Text.isAllBlank raw = false →
        (∀ negative d, ¬SpellsDecimal .unicode raw.toList negative d) →
        ¬SpellsWord .unicode raw.toList →
        readRate name (some raw) default = (default, [⟨.warning, .settings,
          name ++ "=" ++ Text.quoted raw ++ " is not a number; using " ++ default.fixedTwo⟩])) ∧
      (∀ negative d, SpellsDecimal .unicode raw.toList negative d →
        (Binary64.IsNearUnitInterval (Binary64.sign negative * d) →
          ∃ rate v, readRate name (some raw) default = (rate, []) ∧ rate.negative = negative ∧
            rate.IsNearest v (Binary64.sign negative * d)) ∧
        (¬Binary64.IsNearUnitInterval (Binary64.sign negative * d) →
          readRate name (some raw) default = (default, [⟨.warning, .settings,
            name ++ "=" ++ Text.quoted raw ++ " is outside [0, 1]; using " ++
              default.fixedTwo⟩]))) ∧
      (SpellsWord .unicode raw.toList →
        readRate name (some raw) default = (default, [⟨.warning, .settings,
          name ++ "=" ++ Text.quoted raw ++ " is outside [0, 1]; using " ++
            default.fixedTwo⟩])) := by
  refine ⟨?_, rfl, ?_⟩
  · intro raw
    exact Binary64.inUnitInterval_iff.mp
      (inUnitInterval_readRate name raw (Binary64.inUnitInterval_iff.mpr hdefault))
  · intro raw
    simp only [← rateWarning_notANumber, ← rateWarning_outsideRange]
    refine ⟨readRate_of_isAllBlank, ?_, ?_, ?_⟩
    · intro hblank hdecimal hword
      exact readRate_of_error hblank
        (rateOf_of_read?_eq_none (read?_eq_none_iff.mpr ⟨hdecimal, hword⟩))
    · intro negative d hspells
      have hblank := isAllBlank_eq_false_of_exists hspells.exists_isBlank_eq_false
      constructor
      · intro hinside
        obtain ⟨rate, v, hrate, hnegative, hnearest⟩ := rateOf_of_spellsDecimal hspells hinside
        exact ⟨rate, v, readRate_of_ok hblank hrate, hnegative, hnearest⟩
      · intro houtside
        exact readRate_of_error hblank (rateOf_of_spellsDecimal_outside hspells houtside)
    · intro hspells
      exact readRate_of_error (isAllBlank_eq_false_of_exists hspells.exists_isBlank_eq_false)
        (rateOf_of_spellsWord hspells)

/-- A literal a little above one is read as one: its number is not as far from one as the middle
between one and the next double-precision number. -/
theorem readRate_decides_above_one :
    (∃ v, (Binary64.zero false).value? = some v ∧ 0 ≤ v ∧ v ≤ 1) ∧
      SpellsDecimal .unicode "1.0000000000000001".toList false (1 + 1 / 10 ^ 16) ∧
      Binary64.IsNearUnitInterval (Binary64.sign false * (1 + 1 / 10 ^ 16)) ∧
      ∃ rate v, readRate "RATE" (some "1.0000000000000001") (.zero false) = (rate, []) ∧
        rate.negative = false ∧ rate.IsNearest v (Binary64.sign false * (1 + 1 / 10 ^ 16)) := by
  have hdefault := Binary64.inUnitInterval_iff.mp inUnitInterval_zero
  have hspells : SpellsDecimal .unicode "1.0000000000000001".toList false (1 + 1 / 10 ^ 16) :=
    spellsDecimal_iff.mpr ⟨10000000000000001, -16, by decide, by norm_num⟩
  have hinside : Binary64.IsNearUnitInterval (Binary64.sign false * (1 + 1 / 10 ^ 16)) := by
    rw [Binary64.sign, if_neg Bool.false_ne_true, one_mul,
      Binary64.isNearUnitInterval_iff_of_nonneg (by norm_num)]
    norm_num
  exact ⟨hdefault, hspells, hinside,
    (((readRate_decides "RATE" hdefault).2.2 _).2.2.1 false _ hspells).1 hinside⟩

end Pinfall.Reporting
