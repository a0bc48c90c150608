import Pinfall.Number.Integer

/-!
# The characters of numerals

A numeral holds the decimal digits of a magnitude, without a leading zero unless it is the
numeral of zero, and a minus sign in front of them if the number is negative.  Read as digits
with a sign, it tells its number, however long it is.  A hexadecimal numeral may have leading
zeros, and still tells its number.
-/

namespace Pinfall

namespace Text

variable {c d : Char}

/-- Characters are told apart by a class that only one of them is in. -/
theorem ne_of_class {p : Char → Bool} (hc : p c = true) (hd : p d = false) : c ≠ d := by
  rintro rfl
  rw [hc] at hd
  contradiction

theorem asciiDigitValue?_of_isDigit (h : c.isDigit = true) :
    asciiDigitValue? c = some (c.toNat - 48) := by
  simp only [Char.isDigit, ge_iff_le, Bool.and_eq_true, decide_eq_true_eq,
    UInt32.le_iff_toNat_le] at h
  rw [asciiDigitValue?, if_pos]
  · rfl
  · exact h

/-- The letters come after the digits. -/
theorem isAlpha_eq_false_of_isDigit (h : c.isDigit = true) : c.isAlpha = false := by
  have hdigit : c.val ≤ '9'.val := of_decide_eq_true (Bool.and_eq_true_iff.mp h).2
  cases halpha : c.isAlpha with
  | false => rfl
  | true =>
    have hletter : 'A'.val ≤ c.val := by
      rcases Bool.or_eq_true_iff.mp halpha with hupper | hlower
      · exact (of_decide_eq_true hupper).1
      · have hsmall : 'a'.val ≤ c.val := of_decide_eq_true (Bool.and_eq_true_iff.mp hlower).1
        exact UInt32.le_trans (by decide) hsmall
    exact absurd (UInt32.le_trans hletter hdigit) (by decide)

end Text

namespace Number

theorem isDigit_of_mem_toDigits {n : Nat} {c : Char} (h : c ∈ Nat.toDigits 10 n) :
    c.isDigit = true :=
  Nat.isDigit_of_mem_toDigits (by decide) (by decide) h

/-- A positive number has no leading zero. -/
theorem exists_toDigits_eq_cons {n : Nat} (h : 0 < n) :
    ∃ c rest, Nat.toDigits 10 n = c :: rest ∧ 48 < c.toNat := by
  induction n using Nat.strongRecOn with
  | ind n ih =>
    by_cases hn : n < 10
    · refine ⟨_, [], Nat.toDigits_of_lt_base hn, ?_⟩
      rw [Nat.toNat_digitChar_of_lt_ten hn]
      omega
    · obtain ⟨c, rest, hrest, hc⟩ := ih (n / 10) (by omega) (by omega)
      refine ⟨c, rest ++ [Nat.digitChar (n % 10)], ?_, hc⟩
      rw [Nat.toDigits_of_base_le (by decide) (Nat.not_lt.mp hn), hrest, List.cons_append]

theorem toList_numeral_of_neg {n : Int} (h : n < 0) :
    (numeral n).toList = '-' :: Nat.toDigits 10 n.natAbs := by
  simp [numeral, h]

theorem toList_numeral_of_nonneg {n : Int} (h : 0 ≤ n) :
    (numeral n).toList = Nat.toDigits 10 n.natAbs := by
  simp [numeral, Int.not_lt.mpr h]

/-- A power of ten has one digit more than its exponent. -/
theorem not_isPrintable_pow {k : Nat} (h : digitLimit ≤ k) : ¬IsPrintable (Nat.pow 10 k) := by
  rw [IsPrintable, Int.natAbs_natCast]
  intro hshort
  have hk : 0 < k := Nat.lt_of_lt_of_le (by decide) h
  have hlt := (Nat.length_toDigits_le_iff (by decide) hk).mp (Nat.le_trans hshort h)
  exact Nat.lt_irrefl _ hlt

theorem eq_or_isDigit_of_mem_numeral {n : Int} {c : Char} (h : c ∈ (numeral n).toList) :
    c = '-' ∨ c.isDigit = true := by
  rcases Int.lt_or_le n 0 with hn | hn
  · rw [toList_numeral_of_neg hn] at h
    exact (List.mem_cons.mp h).imp id isDigit_of_mem_toDigits
  · rw [toList_numeral_of_nonneg hn] at h
    exact Or.inr (isDigit_of_mem_toDigits h)

/-- A character that is neither a minus sign nor a digit is no numeral. -/
theorem toList_numeral_ne_singleton {c : Char} (hminus : c ≠ '-') (hdigit : c.isDigit = false)
    (n : Int) : (numeral n).toList ≠ [c] := by
  intro h
  have hmem : c ∈ (numeral n).toList := by simp [h]
  rcases eq_or_isDigit_of_mem_numeral hmem with hc | hc
  · exact hminus hc
  · rw [hdigit] at hc
    contradiction

/-! ## Reading a numeral back -/

/-- The integer that a numeral of any length stands for. -/
def ofNumeral? (cs : List Char) : Option Int :=
  let (negative, body) := splitSign cs
  (digitRun? Text.asciiDigitValue? body).map fun digits => signed negative (ofDigits digits)

theorem digitRun?_of_isDigit {cs : List Char} (hne : cs ≠ [])
    (h : ∀ c ∈ cs, c.isDigit = true) :
    digitRun? Text.asciiDigitValue? cs = some (cs.map fun c => c.toNat - 48) := by
  induction cs with
  | nil => contradiction
  | cons c rest ih =>
    have hc := Text.asciiDigitValue?_of_isDigit (h c List.mem_cons_self)
    cases rest with
    | nil => simp [digitRun?, hc]
    | cons d rest =>
      have hd : d ≠ '_' := Text.ne_of_class (h d (by simp)) rfl
      have hrest := ih (by simp) fun e he => h e (List.mem_cons_of_mem c he)
      simp [digitRun?, hc, hd, hrest]

/-- No digit is a sign. -/
theorem splitSign_of_isDigit {cs : List Char} (h : ∀ c ∈ cs, c.isDigit = true) :
    splitSign cs = (false, cs) := by
  unfold splitSign
  split
  next =>
    have hminus := h '-' List.mem_cons_self
    contradiction
  next =>
    have hplus := h '+' List.mem_cons_self
    contradiction
  next => rfl

theorem ofDigits_toDigits (n : Nat) :
    ofDigits ((Nat.toDigits 10 n).map fun c => c.toNat - 48) = n := by
  rw [ofDigits, List.foldl_map]
  exact Nat.ofDigitChars_ten_toDigits

theorem ofNumeral?_numeral (n : Int) : ofNumeral? (numeral n).toList = some n := by
  have hdigit : ∀ c ∈ Nat.toDigits 10 n.natAbs, c.isDigit = true :=
    fun c hc => isDigit_of_mem_toDigits hc
  have hdigits := digitRun?_of_isDigit (by simp) hdigit
  rcases Int.lt_or_le n 0 with hn | hn
  · rw [toList_numeral_of_neg hn]
    simp only [ofNumeral?, splitSign, hdigits, Option.map_some, ofDigits_toDigits]
    exact congrArg some (show -(n.natAbs : Int) = n by omega)
  · rw [toList_numeral_of_nonneg hn]
    simp only [ofNumeral?, splitSign_of_isDigit hdigit, hdigits, Option.map_some,
      ofDigits_toDigits]
    exact congrArg some (show (n.natAbs : Int) = n by omega)

theorem numeral_injective : Function.Injective numeral := by
  intro n m h
  have hread := ofNumeral?_numeral n
  rw [h, ofNumeral?_numeral m] at hread
  exact (Option.some.inj hread).symm

/-! ## Hexadecimal numerals -/

/-- The value of a hexadecimal digit in lower case. -/
def hexDigitValue (c : Char) : Nat :=
  if c.isDigit then c.toNat - 48 else c.toNat - 87

/-- The number that hexadecimal digits spell. -/
def hexValue (cs : List Char) : Nat :=
  cs.foldl (fun value c => 16 * value + hexDigitValue c) 0

theorem hexDigitValue_digitChar : ∀ digit < 16, hexDigitValue (Nat.digitChar digit) = digit := by
  decide

theorem hexValue_append_singleton (cs : List Char) (c : Char) :
    hexValue (cs ++ [c]) = 16 * hexValue cs + hexDigitValue c := by
  simp [hexValue]

theorem hexValue_toDigits (n : Nat) : hexValue (Nat.toDigits 16 n) = n := by
  induction n using Nat.strongRecOn with
  | ind n ih =>
    by_cases hn : n < 16
    · rw [Nat.toDigits_of_lt_base hn]
      simp [hexValue, hexDigitValue_digitChar n hn]
    · have hlast := hexDigitValue_digitChar (n % 16) (Nat.mod_lt n (by decide))
      rw [Nat.toDigits_of_base_le (by decide) (Nat.not_lt.mp hn), hexValue_append_singleton,
        ih (n / 16) (by omega), hlast]
      omega

theorem hexValue_zeros_append (k : Nat) (cs : List Char) :
    hexValue (List.replicate k '0' ++ cs) = hexValue cs := by
  induction k with
  | zero => rfl
  | succ k ih => exact ih

theorem hexNumeral_injective (width : Nat) : Function.Injective (hexNumeral width) := by
  intro n m h
  have hvalue : ∀ k, hexValue (hexNumeral width k).toList = k := by
    intro k
    rw [hexNumeral, String.toList_ofList, hexValue_zeros_append, hexValue_toDigits]
  rw [← hvalue n, h, hvalue m]

end Number

end Pinfall
