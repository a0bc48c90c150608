import Mathlib.Algebra.Field.Rat
import Mathlib.Algebra.Order.Group.Unbundled.Basic
import Mathlib.Tactic.FieldSimp
import Mathlib.Tactic.Ring
import Mathlib.Tactic.Tauto
import Pinfall.Number.Decimal
import Pinfall.Proofs.Number.Grammar
import Pinfall.Proofs.Text.Pieces

/-!
# The grammar of decimal literals

A decimal literal is a mantissa, which is digits with at most one point among them, and perhaps
an exponent; there are also words for infinity and for what is no number.  Each may have a sign
and blanks around it.  What is read of a text is what the grammar says: the exact number of a
literal, the sign of a word, and nothing of any other text.
-/

namespace Pinfall.Number

variable {alphabet : Alphabet} {digit? : Char → Option Nat} {c : Char}
  {cs body mantissa part : List Char} {digits whole fraction : List Nat} {negative : Bool}
  {e : Int} {d : ℚ}

/-! ## The grammar -/

/-- A run of digits or nothing. -/
def OptionalRun (digit? : Char → Option Nat) (cs : List Char) (digits : List Nat) : Prop :=
  cs = [] ∧ digits = [] ∨ DigitRun digit? cs digits

/-- Digits before a point and after it, on one side of it at least; or digits without a point. -/
inductive Mantissa (digit? : Char → Option Nat) : List Char → List Nat → List Nat → Prop where
  | whole {cs : List Char} {whole : List Nat} (hwhole : DigitRun digit? cs whole) :
      Mantissa digit? cs whole []
  | point {before after : List Char} {whole fraction : List Nat}
      (hwhole : OptionalRun digit? before whole) (hfraction : OptionalRun digit? after fraction)
      (hne : whole ≠ [] ∨ fraction ≠ []) : Mantissa digit? (before ++ '.' :: after) whole fraction

/-- The exponent of a literal, which is zero where it is missing. -/
inductive ExponentPart (digit? : Char → Option Nat) : List Char → Int → Prop where
  | missing : ExponentPart digit? [] 0
  | marked {mark : Char} {sign run : List Char} {negative : Bool} {digits : List Nat}
      (hmark : mark = 'e' ∨ mark = 'E') (hsign : IsSign sign negative)
      (hrun : DigitRun digit? run digits) :
      ExponentPart digit? (mark :: (sign ++ run))
        ((if negative then -1 else 1) * (baseTen digits : Int))

/-- The text is a mantissa with an exponent after it. -/
def IsLiteral (alphabet : Alphabet) (body : List Char) (whole fraction : List Nat) (e : Int) :
    Prop :=
  ∃ mantissa part, body = mantissa ++ part ∧ Mantissa alphabet.digit? mantissa whole fraction ∧
    ExponentPart alphabet.digit? part e

/-- The text spells a decimal literal with the given sign and the given number behind it. -/
def SpellsDecimal (alphabet : Alphabet) (cs : List Char) (negative : Bool) (d : ℚ) : Prop :=
  ∃ body whole fraction e, IsSigned alphabet.isBlank cs negative body ∧
    IsLiteral alphabet body whole fraction e ∧
    d = (baseTen whole + baseTen fraction / 10 ^ fraction.length) * 10 ^ e

/-- The words for infinity and for what is no number. -/
def words : List (List Char) := ["inf".toList, "infinity".toList, "nan".toList]

/-- The text spells one of the words, in any case. -/
def SpellsWord (alphabet : Alphabet) (cs : List Char) : Prop :=
  ∃ negative word, IsSigned alphabet.isBlank cs negative word ∧ word.map Char.toLower ∈ words

/-! ## Digits around a point -/

theorem baseTen_append (whole fraction : List Nat) :
    baseTen (whole ++ fraction) = baseTen whole * 10 ^ fraction.length + baseTen fraction := by
  rw [baseTen, List.reverse_append, Nat.ofDigits_append, List.length_reverse, baseTen, baseTen]
  ring

/-- The point of a mantissa can be moved to its end, at the cost of the exponent. -/
theorem baseTen_append_mul_zpow (whole fraction : List Nat) (e : Int) :
    (baseTen (whole ++ fraction) : ℚ) * 10 ^ (e - fraction.length) =
      (baseTen whole + baseTen fraction / 10 ^ fraction.length) * 10 ^ e := by
  have hten : (10 : ℚ) ≠ 0 := by norm_num
  rw [baseTen_append, zpow_sub₀ hten, zpow_natCast]
  push_cast
  field_simp

theorem optionalRun?_eq_some_iff (hunderscore : digit? '_' = none) :
    Decimal.optionalRun? digit? cs = some digits ↔ OptionalRun digit? cs digits := by
  cases cs with
  | nil =>
    have hnone : ¬DigitRun digit? [] digits := nofun
    simp [Decimal.optionalRun?, OptionalRun, hnone, eq_comm]
  | cons c rest =>
    rw [OptionalRun, ← digitRun?_eq_some_iff hunderscore]
    simp [Decimal.optionalRun?]

theorem DigitRun.digits_ne_nil (h : DigitRun digit? cs digits) : digits ≠ [] := by
  cases h with
  | last | cons | underscore => exact List.cons_ne_nil _ _

theorem OptionalRun.eq_or_isSome_of_mem (h : OptionalRun digit? cs digits) (hc : c ∈ cs) :
    c = '_' ∨ ∃ d, digit? c = some d := by
  rcases h with ⟨rfl, -⟩ | hrun
  · contradiction
  · exact hrun.eq_or_isSome_of_mem hc

/-- The characters of a mantissa are digits, underscores and a point. -/
theorem Mantissa.eq_or_isSome_of_mem (h : Mantissa digit? cs whole fraction) (hc : c ∈ cs) :
    c = '_' ∨ c = '.' ∨ ∃ d, digit? c = some d := by
  cases h with
  | whole hwhole => exact (hwhole.eq_or_isSome_of_mem hc).imp_right Or.inr
  | point hwhole hfraction =>
    rcases List.mem_append.mp hc with hc | hc
    · exact (hwhole.eq_or_isSome_of_mem hc).imp_right Or.inr
    · rcases List.mem_cons.mp hc with rfl | hc
      · exact Or.inr (Or.inl rfl)
      · exact (hfraction.eq_or_isSome_of_mem hc).imp_right Or.inr

/-- What is before the point of a text and after it makes a mantissa. -/
theorem mantissa_of_splitAtFirst {before : List Char} {after : Option (List Char)}
    (hsplit : Text.splitAtFirst (· = '.') cs = (before, after))
    (hwhole : OptionalRun digit? before whole)
    (hfraction : OptionalRun digit? (after.getD []) fraction)
    (hne : whole ≠ [] ∨ fraction ≠ []) : Mantissa digit? cs whole fraction := by
  rcases Text.splitAtFirst_cases (· = '.') cs with hnone | ⟨_, mark, _, rfl, hmark, hsome⟩
  · obtain ⟨rfl, rfl⟩ := Prod.mk.inj (hnone.symm.trans hsplit)
    rcases hfraction with ⟨-, rfl⟩ | hrun
    · rcases hwhole with ⟨-, rfl⟩ | hrun
      · simp at hne
      · exact Mantissa.whole hrun
    · cases hrun
  · obtain ⟨rfl, rfl⟩ := Prod.mk.inj (hsome.symm.trans hsplit)
    obtain rfl := of_decide_eq_true hmark
    exact Mantissa.point hwhole hfraction hne

theorem Mantissa.exists_splitAtFirst (h : Mantissa alphabet.digit? cs whole fraction)
    (hclear : alphabet.IsClear) :
    ∃ before after, Text.splitAtFirst (· = '.') cs = (before, after) ∧
      OptionalRun alphabet.digit? before whole ∧
      OptionalRun alphabet.digit? (after.getD []) fraction ∧ (whole ≠ [] ∨ fraction ≠ []) := by
  have hplain : ∀ {run digits}, OptionalRun alphabet.digit? run digits →
      ∀ c ∈ run, decide (c = '.') = false := by
    intro run digits hrun c hc
    rcases hrun.eq_or_isSome_of_mem hc with rfl | ⟨d, hd⟩
    · rfl
    · exact decide_eq_false (hclear.ne_of_digit (by decide) hd)
  cases h with
  | whole hwhole =>
    exact ⟨_, _, Text.splitAtFirst_of_forall (hplain (Or.inr hwhole)), Or.inr hwhole,
      Or.inl ⟨rfl, rfl⟩, Or.inl hwhole.digits_ne_nil⟩
  | point hwhole hfraction hne =>
    exact ⟨_, _, Text.splitAtFirst_append (hplain hwhole) (decide_eq_true rfl) _, hwhole,
      hfraction, hne⟩

/-! ## Exponents -/

/-- The characters of an exponent are digits, underscores, signs and the mark. -/
theorem ExponentPart.mem_or_isSome_of_mem (h : ExponentPart digit? cs e) (hc : c ∈ cs) :
    c ∈ marks ∨ ∃ d, digit? c = some d := by
  cases h with
  | missing => contradiction
  | marked hmark hsign hrun =>
    rcases List.mem_cons.mp hc with rfl | hc
    · rcases hmark with rfl | rfl
      · exact Or.inl (by decide)
      · exact Or.inl (by decide)
    · rcases List.mem_append.mp hc with hc | hc
      · exact Or.inl (hsign.mem_marks hc)
      · refine (hrun.eq_or_isSome_of_mem hc).imp_left ?_
        rintro rfl
        decide

/-- An exponent after its mark, in front of which the mantissa stands. -/
theorem exponentPart_of_splitAtFirst {after : Option (List Char)}
    (hsplit : Text.splitAtFirst (fun c => c = 'e' || c = 'E') cs = (mantissa, after))
    (hexponent : Decimal.exponent? digit? after = some e) :
    ∃ part, cs = mantissa ++ part ∧ ExponentPart digit? part e := by
  rcases Text.splitAtFirst_cases (fun c => c = 'e' || c = 'E') cs with
    hnone | ⟨_, mark, rest, rfl, hmark, hsome⟩
  · obtain ⟨rfl, rfl⟩ := Prod.mk.inj (hnone.symm.trans hsplit)
    obtain rfl := Option.some.inj hexponent
    exact ⟨[], (List.append_nil cs).symm, ExponentPart.missing⟩
  · obtain ⟨rfl, rfl⟩ := Prod.mk.inj (hsome.symm.trans hsplit)
    rcases hbody : splitSign rest with ⟨negative, body⟩
    simp only [Decimal.exponent?, hbody] at hexponent
    obtain ⟨digits, hdigits, hvalue⟩ := Option.bind_eq_some_iff.mp hexponent
    obtain ⟨sign, hsign, rfl⟩ := isSign_of_splitSign hbody
    obtain rfl := Option.some.inj hvalue
    rw [signed_eq, ofDigits_eq]
    refine ⟨_, rfl, ExponentPart.marked ?_ hsign (digitRun_of_digitRun? hdigits)⟩
    simpa using hmark

theorem ExponentPart.exists_splitAtFirst (h : ExponentPart alphabet.digit? part e)
    (hclear : alphabet.IsClear)
    (hmantissa : ∀ c ∈ mantissa, (decide (c = 'e') || decide (c = 'E')) = false) :
    ∃ after, Text.splitAtFirst (fun c => c = 'e' || c = 'E') (mantissa ++ part) =
      (mantissa, after) ∧ Decimal.exponent? alphabet.digit? after = some e := by
  cases h with
  | missing =>
    rw [List.append_nil]
    exact ⟨none, Text.splitAtFirst_of_forall hmantissa, rfl⟩
  | marked hmark hsign hrun =>
    refine ⟨_, Text.splitAtFirst_append hmantissa (by simpa using hmark) _, ?_⟩
    have hdigits := (digitRun?_eq_some_iff (hclear.digit?_of_mark '_' (by decide))).mpr hrun
    simp only [Decimal.exponent?, (hrun.isBody hclear).splitSign_append hsign, hdigits,
      Option.bind_eq_bind, Option.bind_some, signed_eq, ofDigits_eq]
    rfl

theorem Mantissa.no_exponent_mark (h : Mantissa alphabet.digit? mantissa whole fraction)
    (hclear : alphabet.IsClear) :
    ∀ c ∈ mantissa, (decide (c = 'e') || decide (c = 'E')) = false := by
  intro c hc
  rcases h.eq_or_isSome_of_mem hc with rfl | rfl | ⟨d, hd⟩
  · rfl
  · rfl
  · rw [Bool.or_eq_false_iff, decide_eq_false_iff_not, decide_eq_false_iff_not]
    exact ⟨hclear.ne_of_digit (by decide) hd, hclear.ne_of_digit (by decide) hd⟩

/-! ## Literals -/

theorem finite?_eq_some_iff (hclear : alphabet.IsClear) {decimal : Decimal} :
    Decimal.finite? alphabet.digit? negative body = some decimal ↔
      ∃ whole fraction e, IsLiteral alphabet body whole fraction e ∧
        decimal = .finite negative (ofDigits (whole ++ fraction)) (e - fraction.length) := by
  have hunderscore := hclear.digit?_of_mark '_' (by decide)
  constructor
  · intro h
    rcases hexponent : Text.splitAtFirst (fun c => c = 'e' || c = 'E') body with ⟨mantissa, after⟩
    rcases hpoint : Text.splitAtFirst (· = '.') mantissa with ⟨wholePart, fractionPart⟩
    simp only [Decimal.finite?, hexponent, hpoint] at h
    obtain ⟨whole, hwhole, h⟩ := Option.bind_eq_some_iff.mp h
    obtain ⟨fraction, hfraction, h⟩ := Option.bind_eq_some_iff.mp h
    obtain ⟨e, he, h⟩ := Option.bind_eq_some_iff.mp h
    split at h
    next => contradiction
    next hne =>
      rw [optionalRun?_eq_some_iff hunderscore] at hwhole hfraction
      obtain ⟨part, rfl, hpart⟩ := exponentPart_of_splitAtFirst hexponent he
      obtain rfl := Option.some.inj h
      have hnonempty : whole ≠ [] ∨ fraction ≠ [] := by
        rw [← not_and_or]
        simpa using hne
      exact ⟨whole, fraction, e, ⟨mantissa, part, rfl,
        mantissa_of_splitAtFirst hpoint hwhole hfraction hnonempty, hpart⟩, rfl⟩
  · rintro ⟨whole, fraction, e, ⟨mantissa, part, rfl, hmantissa, hpart⟩, rfl⟩
    obtain ⟨after, hexponent, he⟩ := hpart.exists_splitAtFirst hclear
      (hmantissa.no_exponent_mark hclear)
    obtain ⟨before, rest, hpoint, hwhole, hfraction, hne⟩ :=
      hmantissa.exists_splitAtFirst hclear
    rw [← optionalRun?_eq_some_iff hunderscore] at hwhole hfraction
    have hnonempty : (whole.isEmpty && fraction.isEmpty) = false := by
      simpa [imp_iff_not_or] using hne
    simp only [Decimal.finite?, hexponent, hpoint, hwhole, hfraction, he, Option.bind_eq_bind,
      Option.bind_some, hnonempty]
    rfl

theorem Mantissa.exists_head (h : Mantissa digit? cs whole fraction) :
    ∃ c rest, cs = c :: rest ∧ (c = '.' ∨ ∃ d, digit? c = some d) := by
  cases h with
  | whole hwhole =>
    obtain ⟨c, d, rest, rfl, hd⟩ := hwhole.exists_head
    exact ⟨c, rest, rfl, Or.inr ⟨d, hd⟩⟩
  | point hwhole =>
    rcases hwhole with ⟨rfl, -⟩ | hrun
    · exact ⟨_, _, rfl, Or.inl rfl⟩
    · obtain ⟨c, d, rest, rfl, hd⟩ := hrun.exists_head
      exact ⟨c, _, rfl, Or.inr ⟨d, hd⟩⟩

/-- The characters of a literal are digits and marks. -/
theorem IsLiteral.mem_or_isSome_of_mem (h : IsLiteral alphabet body whole fraction e)
    (hc : c ∈ body) : c ∈ marks ∨ ∃ d, alphabet.digit? c = some d := by
  obtain ⟨mantissa, part, rfl, hmantissa, hpart⟩ := h
  rcases List.mem_append.mp hc with hc | hc
  · rcases hmantissa.eq_or_isSome_of_mem hc with rfl | rfl | hdigit
    · exact Or.inl (by decide)
    · exact Or.inl (by decide)
    · exact Or.inr hdigit
  · exact hpart.mem_or_isSome_of_mem hc

theorem IsLiteral.isBody (h : IsLiteral alphabet body whole fraction e)
    (hclear : alphabet.IsClear) : IsBody alphabet.isBlank body := by
  have hplain : ∀ c ∈ body, alphabet.isBlank c = false := by
    intro c hc
    rcases h.mem_or_isSome_of_mem hc with hmark | ⟨d, hd⟩
    · exact hclear.isBlank_of_mark c hmark
    · exact hclear.isBlank_of_digit c d hd
  obtain ⟨mantissa, part, rfl, hmantissa, -⟩ := h
  obtain ⟨first, rest, rfl, hfirst⟩ := hmantissa.exists_head
  refine ⟨List.cons_ne_nil _ _, hplain, ?_⟩
  intro c hc
  obtain rfl : first = c := Option.some.inj hc
  rcases hfirst with rfl | ⟨d, hd⟩
  · decide
  · exact ⟨hclear.ne_of_digit (by decide) hd, hclear.ne_of_digit (by decide) hd⟩

/-! ## Words -/

theorem toLower_of_apart (h : c.toNat < 0x41 ∨ 0x5A < c.toNat) : c.toLower = c := by
  refine dif_neg ?_
  rintro ⟨hlow, hhigh⟩
  rw [ge_iff_le, UInt32.le_iff_toNat_le] at hlow
  rw [UInt32.le_iff_toNat_le] at hhigh
  have hA : ('A' : Char).val.toNat = 0x41 := rfl
  have hZ : ('Z' : Char).val.toNat = 0x5A := rfl
  have hval : c.val.toNat = c.toNat := rfl
  omega

theorem toLower_of_isBlank (h : Text.isBlank c = true) : c.toLower = c := by
  apply toLower_of_apart
  simp only [Text.isBlank, Text.isWhiteSpace, Bool.or_eq_true, Bool.and_eq_true,
    decide_eq_true_eq, beq_iff_eq] at h
  omega

theorem zeroDigits_apart_of_letters :
    ∀ start ∈ Text.zeroDigits, start + 10 ≤ 0x41 ∨ 0x5A < start := by
  decide

theorem toLower_of_digitValue? {d : Nat} (h : Text.digitValue? c = some d) : c.toLower = c := by
  obtain ⟨start, hstart, -⟩ := Option.map_eq_some_iff.mp h
  have hin := List.find?_some hstart
  have hapart := zeroDigits_apart_of_letters start (List.mem_of_find?_eq_some hstart)
  simp only [Bool.and_eq_true, decide_eq_true_eq] at hin
  apply toLower_of_apart
  omega

/-- A literal is none of the words, as each of them has an `n`. -/
theorem IsLiteral.map_toLower_not_mem_words (h : IsLiteral .unicode body whole fraction e) :
    body.map Char.toLower ∉ words := by
  intro hword
  have hall : words.all (fun word => word.contains 'n') = true := by decide
  have hn := List.all_eq_true.mp hall _ hword
  obtain ⟨c, hc, hlower⟩ := List.mem_map.mp (List.contains_iff_mem.mp hn)
  rcases h.mem_or_isSome_of_mem hc with hmark | ⟨d, hd⟩
  · have hmarks : ∀ c ∈ marks, c.toLower ≠ 'n' := forall_mem_marks.mpr (by decide)
    exact hmarks c hmark hlower
  · rw [toLower_of_digitValue? hd] at hlower
    subst hlower
    contradiction

/-- There is neither a blank nor a sign in a word. -/
theorem plain_of_mem_words {word : List Char} (h : word.map Char.toLower ∈ words) :
    ∀ c ∈ word, Text.isBlank c = false ∧ c ≠ '+' ∧ c ≠ '-' := by
  have hall : words.all (fun word => word.all fun c =>
      !Text.isBlank c && c != '+' && c != '-') = true := by decide
  have hplain := List.all_eq_true.mp (List.all_eq_true.mp hall _ h)
  intro c hc
  have hlower : Text.isBlank c.toLower = false ∧ c.toLower ≠ '+' ∧ c.toLower ≠ '-' := by
    simpa [and_assoc] using hplain _ (List.mem_map_of_mem hc)
  refine ⟨?_, ?_, ?_⟩
  · cases hblank : Text.isBlank c with
    | false => rfl
    | true =>
      rw [toLower_of_isBlank hblank, hblank] at hlower
      exact hlower.1
  · rintro rfl
    exact hlower.2.1 rfl
  · rintro rfl
    exact hlower.2.2 rfl

theorem ne_nil_of_mem_words {word : List Char} (h : word.map Char.toLower ∈ words) :
    word ≠ [] := by
  rintro rfl
  revert h
  decide

theorem isBody_of_mem_words {word : List Char} (h : word.map Char.toLower ∈ words) :
    IsBody Alphabet.unicode.isBlank word where
  ne_nil := ne_nil_of_mem_words h
  isBlank_of_mem := fun c hc => isWhiteSpace_of_isBlank (plain_of_mem_words h c hc).1
  head?_ne_sign := fun c hc => (plain_of_mem_words h c (List.mem_of_head? hc)).2

/-! ## What is read -/

theorem read?_of_mem_words
    (hsplit : splitSign (Text.stripBy alphabet.isBlank cs) = (negative, body))
    (h : body.map Char.toLower ∈ words) :
    Decimal.read? alphabet cs = some (.infinite negative) ∨
      Decimal.read? alphabet cs = some (.nan negative) := by
  simp only [words, List.mem_cons, List.not_mem_nil, or_false] at h
  simp only [Decimal.read?, hsplit]
  split
  next => exact Or.inl rfl
  next hinfinite =>
    split
    next => exact Or.inr rfl
    next hnan =>
      simp only [Bool.or_eq_true, decide_eq_true_eq] at hinfinite
      tauto

theorem read?_of_not_mem_words
    (hsplit : splitSign (Text.stripBy alphabet.isBlank cs) = (negative, body))
    (h : body.map Char.toLower ∉ words) :
    Decimal.read? alphabet cs = Decimal.finite? alphabet.digit? negative body := by
  simp only [words, List.mem_cons, List.not_mem_nil, or_false, not_or] at h
  simp only [Decimal.read?, hsplit, h]
  rfl

/-- The literals are just what is read as a finite number, and the number is theirs. -/
theorem spellsDecimal_iff : SpellsDecimal .unicode cs negative d ↔
    ∃ coefficient exponent,
      Decimal.read? .unicode cs = some (.finite negative coefficient exponent) ∧
        d = coefficient * 10 ^ exponent := by
  constructor
  · rintro ⟨body, whole, fraction, e, hsigned, hliteral, rfl⟩
    have hsplit := (hliteral.isBody Alphabet.isClear_unicode).splitSign_stripBy
      Alphabet.isClear_unicode.isBlank_of_mark hsigned
    refine ⟨ofDigits (whole ++ fraction), e - fraction.length, ?_, ?_⟩
    · rw [read?_of_not_mem_words hsplit hliteral.map_toLower_not_mem_words]
      exact (finite?_eq_some_iff Alphabet.isClear_unicode).mpr ⟨whole, fraction, e, hliteral, rfl⟩
    · rw [ofDigits_eq, baseTen_append_mul_zpow]
  · rintro ⟨coefficient, exponent, hread, rfl⟩
    rcases hsplit : splitSign (Text.stripBy Alphabet.unicode.isBlank cs) with ⟨sign, body⟩
    by_cases hword : body.map Char.toLower ∈ words
    · rcases read?_of_mem_words hsplit hword with hspecial | hspecial
      · simp [hspecial] at hread
      · simp [hspecial] at hread
    · rw [read?_of_not_mem_words hsplit hword, finite?_eq_some_iff Alphabet.isClear_unicode]
        at hread
      obtain ⟨whole, fraction, e, hliteral, hdecimal⟩ := hread
      obtain ⟨rfl, rfl, rfl⟩ := Decimal.finite.inj hdecimal
      refine ⟨body, whole, fraction, e, isSigned_of_splitSign hsplit, hliteral, ?_⟩
      rw [ofDigits_eq, baseTen_append_mul_zpow]

/-- The words are just what else is read. -/
theorem spellsWord_iff : SpellsWord .unicode cs ↔ ∃ negative,
    Decimal.read? .unicode cs = some (.infinite negative) ∨
      Decimal.read? .unicode cs = some (.nan negative) := by
  constructor
  · rintro ⟨negative, word, hsigned, hword⟩
    have hsplit := (isBody_of_mem_words hword).splitSign_stripBy
      Alphabet.isClear_unicode.isBlank_of_mark hsigned
    exact ⟨negative, read?_of_mem_words hsplit hword⟩
  · rintro ⟨negative, hread⟩
    rcases hsplit : splitSign (Text.stripBy Alphabet.unicode.isBlank cs) with ⟨sign, body⟩
    by_cases hword : body.map Char.toLower ∈ words
    · exact ⟨sign, body, isSigned_of_splitSign hsplit, hword⟩
    · simp only [read?_of_not_mem_words hsplit hword,
        finite?_eq_some_iff Alphabet.isClear_unicode] at hread
      simp at hread

theorem read?_eq_none_iff : Decimal.read? .unicode cs = none ↔
    (∀ negative d, ¬SpellsDecimal .unicode cs negative d) ∧ ¬SpellsWord .unicode cs := by
  simp only [spellsDecimal_iff, spellsWord_iff]
  cases Decimal.read? .unicode cs with
  | none => simp
  | some decimal =>
    cases decimal with
    | finite | infinite | nan => simp

/-! ## Blank texts -/

theorem SpellsDecimal.exists_isBlank_eq_false (h : SpellsDecimal .unicode cs negative d) :
    ∃ c ∈ cs, Text.isBlank c = false := by
  obtain ⟨body, whole, fraction, e, hsigned, ⟨mantissa, part, rfl, hmantissa, -⟩, -⟩ := h
  obtain ⟨first, rest, rfl, hfirst⟩ := hmantissa.exists_head
  refine ⟨first, hsigned.mem_of_mem (by simp), ?_⟩
  rcases hfirst with rfl | ⟨digit, hdigit⟩
  · decide
  · exact isBlank_of_digitValue? hdigit

theorem SpellsWord.exists_isBlank_eq_false (h : SpellsWord .unicode cs) :
    ∃ c ∈ cs, Text.isBlank c = false := by
  obtain ⟨negative, word, hsigned, hword⟩ := h
  obtain ⟨c, hc⟩ := List.exists_mem_of_ne_nil word (ne_nil_of_mem_words hword)
  exact ⟨c, hsigned.mem_of_mem hc, (plain_of_mem_words hword c hc).1⟩

end Pinfall.Number
