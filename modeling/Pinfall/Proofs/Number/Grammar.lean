import Mathlib.Data.Nat.Digits.Defs
import Pinfall.Number.Integer
import Pinfall.Proofs.Text.Trimming

/-!
# The grammar of numbers in texts

A number in a text is a body of digits and marks, with at most one sign in front of it and
blanks around it.  Digits come in runs, in which single underscores may part them.  The grammar
is stated on its own; the reader of integers accepts just what it allows, and tells the integer
that the digits make in base ten.
-/

namespace Pinfall.Number

variable {alphabet : Alphabet} {isBlank : Char → Bool} {digit? : Char → Option Nat}
  {cs sign body : List Char} {digits : List Nat} {negative : Bool} {c : Char} {n : Int}

/-! ## The grammar -/

/-- A run of digits, in which an underscore may stand between two of them, and their values. -/
inductive DigitRun (digit? : Char → Option Nat) : List Char → List Nat → Prop where
  | last {c : Char} {d : Nat} (hdigit : digit? c = some d) : DigitRun digit? [c] [d]
  | cons {c : Char} {d : Nat} {cs : List Char} {ds : List Nat} (hdigit : digit? c = some d)
      (hrest : DigitRun digit? cs ds) : DigitRun digit? (c :: cs) (d :: ds)
  | underscore {c : Char} {d : Nat} {cs : List Char} {ds : List Nat} (hdigit : digit? c = some d)
      (hrest : DigitRun digit? cs ds) : DigitRun digit? (c :: '_' :: cs) (d :: ds)

/-- One sign or none; the flag tells a minus. -/
inductive IsSign : List Char → Bool → Prop where
  | none : IsSign [] false
  | plus : IsSign ['+'] false
  | minus : IsSign ['-'] true

/-- The text is the body with one sign or none in front of it, and blanks around both. -/
def IsSigned (isBlank : Char → Bool) (cs : List Char) (negative : Bool) (body : List Char) :
    Prop :=
  ∃ front sign back, cs = front ++ (sign ++ body ++ back) ∧ IsSign sign negative ∧
    (∀ c ∈ front, isBlank c = true) ∧ ∀ c ∈ back, isBlank c = true

/-- The number that decimal digits make, the highest of them first. -/
def baseTen (digits : List Nat) : Nat :=
  Nat.ofDigits 10 digits.reverse

/-- The text spells an integer in at most 4300 decimal digits. -/
def SpellsInteger (alphabet : Alphabet) (cs : List Char) (n : Int) : Prop :=
  ∃ negative body digits, IsSigned alphabet.isBlank cs negative body ∧
    DigitRun alphabet.digit? body digits ∧ digits.length ≤ 4300 ∧
    n = (if negative then -1 else 1) * (baseTen digits : Int)

/-- The marks that a number may hold beside its digits. -/
def marks : List Char := ['_', '+', '-', '.', 'e', 'E']

/-- No mark of a number is a digit or a blank, and no digit is a blank. -/
structure Alphabet.IsClear (alphabet : Alphabet) : Prop where
  digit?_of_mark : ∀ c ∈ marks, alphabet.digit? c = none
  isBlank_of_mark : ∀ c ∈ marks, alphabet.isBlank c = false
  isBlank_of_digit : ∀ c d, alphabet.digit? c = some d → alphabet.isBlank c = false

/-! ## Runs of digits -/

theorem ofDigits_eq (digits : List Nat) : ofDigits digits = baseTen digits := by
  rw [ofDigits, baseTen, ← List.foldr_reverse, Nat.ofDigits_eq_foldr]
  simp only [Nat.cast_id, Nat.add_comm]

theorem signed_eq (negative : Bool) (magnitude : Nat) :
    signed negative magnitude = (if negative then -1 else 1) * (magnitude : Int) := by
  cases negative with
  | false => simp [signed]
  | true => simp [signed]

theorem DigitRun.exists_head (h : DigitRun digit? cs digits) :
    ∃ c d rest, cs = c :: rest ∧ digit? c = some d := by
  cases h with
  | last hdigit | cons hdigit | underscore hdigit => exact ⟨_, _, _, rfl, hdigit⟩

/-- The characters of a run are digits and underscores. -/
theorem DigitRun.eq_or_isSome_of_mem (h : DigitRun digit? cs digits) (hc : c ∈ cs) :
    c = '_' ∨ ∃ d, digit? c = some d := by
  induction h with
  | last hdigit =>
    obtain rfl := List.mem_singleton.mp hc
    exact Or.inr ⟨_, hdigit⟩
  | cons hdigit _ ih =>
    rcases List.mem_cons.mp hc with rfl | hrest
    · exact Or.inr ⟨_, hdigit⟩
    · exact ih hrest
  | underscore hdigit _ ih =>
    rcases List.mem_cons.mp hc with rfl | hrest
    · exact Or.inr ⟨_, hdigit⟩
    · rcases List.mem_cons.mp hrest with rfl | hrest
      · exact Or.inl rfl
      · exact ih hrest

theorem digitRun?_cons_of_ne {rest : List Char} {d : Char} (h : d ≠ '_') :
    digitRun? digit? (c :: d :: rest) = (digit? c).bind fun digit =>
      (digitRun? digit? (d :: rest)).map (digit :: ·) := by
  simp [digitRun?, h, Option.map_eq_bind]

theorem digitRun?_cons_underscore (rest : List Char) :
    digitRun? digit? (c :: '_' :: rest) = (digit? c).bind fun digit =>
      (digitRun? digit? rest).map (digit :: ·) := by
  simp [digitRun?, Option.map_eq_bind]

theorem digitRun_of_digitRun? (h : digitRun? digit? cs = some digits) :
    DigitRun digit? cs digits := by
  fun_induction digitRun? digit? cs generalizing digits with
  | case1 => contradiction
  | case2 c =>
    obtain ⟨d, hdigit, rfl⟩ := Option.map_eq_some_iff.mp h
    exact DigitRun.last hdigit
  | case3 c rest ih =>
    obtain ⟨d, hdigit, hrest⟩ := Option.bind_eq_some_iff.mp h
    obtain ⟨ds, hds, hdigits⟩ := Option.bind_eq_some_iff.mp hrest
    obtain rfl := Option.some.inj hdigits
    exact DigitRun.underscore hdigit (ih hds)
  | case4 c rest _ _ ih =>
    obtain ⟨d, hdigit, hrest⟩ := Option.bind_eq_some_iff.mp h
    obtain ⟨ds, hds, hdigits⟩ := Option.bind_eq_some_iff.mp hrest
    obtain rfl := Option.some.inj hdigits
    exact DigitRun.cons hdigit (ih hds)

/-- Where an underscore is no digit, the runs are just what is read. -/
theorem digitRun?_eq_some_iff (hunderscore : digit? '_' = none) :
    digitRun? digit? cs = some digits ↔ DigitRun digit? cs digits := by
  refine ⟨digitRun_of_digitRun?, ?_⟩
  intro h
  induction h with
  | last hdigit => simp [digitRun?, hdigit]
  | @cons c d cs ds hdigit hrest ih =>
    obtain ⟨next, value, rest, rfl, hnext⟩ := hrest.exists_head
    have hne : next ≠ '_' := by
      rintro rfl
      rw [hunderscore] at hnext
      contradiction
    rw [digitRun?_cons_of_ne hne, hdigit, Option.bind_some, ih, Option.map_some]
  | underscore hdigit _ ih =>
    rw [digitRun?_cons_underscore, hdigit, Option.bind_some, ih, Option.map_some]

/-! ## Signs and blanks -/

theorem isSign_of_splitSign (h : splitSign cs = (negative, body)) :
    ∃ sign, IsSign sign negative ∧ cs = sign ++ body := by
  unfold splitSign at h
  split at h
  · obtain ⟨rfl, rfl⟩ := Prod.mk.inj h
    exact ⟨_, IsSign.minus, rfl⟩
  · obtain ⟨rfl, rfl⟩ := Prod.mk.inj h
    exact ⟨_, IsSign.plus, rfl⟩
  · obtain ⟨rfl, rfl⟩ := Prod.mk.inj h
    exact ⟨_, IsSign.none, rfl⟩

theorem IsSign.mem_marks (h : IsSign sign negative) (hc : c ∈ sign) : c ∈ marks := by
  cases h with
  | none => contradiction
  | plus | minus =>
    obtain rfl := List.mem_singleton.mp hc
    decide

theorem splitSign_of_head?_ne (h : ∀ c, cs.head? = some c → c ≠ '+' ∧ c ≠ '-') :
    splitSign cs = (false, cs) := by
  unfold splitSign
  split
  · exact absurd rfl (h '-' rfl).2
  · exact absurd rfl (h '+' rfl).1
  · rfl

/-- A body starts with no sign, and there is no blank in it. -/
structure IsBody (isBlank : Char → Bool) (body : List Char) : Prop where
  ne_nil : body ≠ []
  isBlank_of_mem : ∀ c ∈ body, isBlank c = false
  head?_ne_sign : ∀ c, body.head? = some c → c ≠ '+' ∧ c ≠ '-'

theorem IsBody.splitSign_append (h : IsBody isBlank body) (hsign : IsSign sign negative) :
    splitSign (sign ++ body) = (negative, body) := by
  cases hsign with
  | none => exact splitSign_of_head?_ne h.head?_ne_sign
  | plus => rfl
  | minus => rfl

/-- Whatever is left of a text without blanks and sign, they were around it and in front. -/
theorem isSigned_of_splitSign (h : splitSign (Text.stripBy isBlank cs) = (negative, body)) :
    IsSigned isBlank cs negative body := by
  obtain ⟨sign, hsign, hstripped⟩ := isSign_of_splitSign h
  obtain ⟨front, back, hcs, hfront, hback⟩ := Text.exists_append_stripBy_append isBlank cs
  exact ⟨front, sign, back, by rw [← hstripped]; exact hcs, hsign, hfront, hback⟩

/-- Without the blanks around it and the sign in front of it, a body is left. -/
theorem IsBody.splitSign_stripBy (h : IsBody isBlank body)
    (hmarks : ∀ c ∈ marks, isBlank c = false) (hsigned : IsSigned isBlank cs negative body) :
    splitSign (Text.stripBy isBlank cs) = (negative, body) := by
  obtain ⟨front, sign, back, rfl, hsign, hfront, hback⟩ := hsigned
  have hplain : ∀ c ∈ sign ++ body, isBlank c = false := by
    intro c hc
    rcases List.mem_append.mp hc with hc | hc
    · exact hmarks c (hsign.mem_marks hc)
    · exact h.isBlank_of_mem c hc
  rw [Text.stripBy_append_append hfront hback (fun c hc => hplain c (List.mem_of_head? hc))
    (fun c hc => hplain c (List.mem_of_getLast? hc))]
  exact h.splitSign_append hsign

theorem IsSigned.mem_of_mem (h : IsSigned isBlank cs negative body) (hc : c ∈ body) : c ∈ cs := by
  obtain ⟨front, sign, back, rfl, -⟩ := h
  simp [hc]

/-! ## Integers -/

theorem Alphabet.IsClear.ne_of_digit (hclear : alphabet.IsClear) {mark : Char} {d : Nat}
    (hmark : mark ∈ marks) (h : alphabet.digit? c = some d) : c ≠ mark := by
  rintro rfl
  rw [hclear.digit?_of_mark c hmark] at h
  contradiction

theorem DigitRun.isBody (hclear : alphabet.IsClear) (h : DigitRun alphabet.digit? body digits) :
    IsBody alphabet.isBlank body := by
  refine ⟨?_, ?_, ?_⟩
  · obtain ⟨c, d, rest, rfl, -⟩ := h.exists_head
    exact List.cons_ne_nil c rest
  · intro c hc
    rcases h.eq_or_isSome_of_mem hc with rfl | ⟨d, hd⟩
    · exact hclear.isBlank_of_mark '_' (by decide)
    · exact hclear.isBlank_of_digit c d hd
  · intro c hc
    obtain ⟨first, d, rest, rfl, hd⟩ := h.exists_head
    obtain rfl : first = c := Option.some.inj hc
    exact ⟨hclear.ne_of_digit (by decide) hd, hclear.ne_of_digit (by decide) hd⟩

/-- Just the texts that spell an integer are read, as the integer that they spell. -/
theorem readInteger_eq_some_iff (hclear : alphabet.IsClear) :
    readInteger alphabet cs = some n ↔ SpellsInteger alphabet cs n := by
  have hunderscore := hclear.digit?_of_mark '_' (by decide)
  constructor
  · intro h
    rcases hsplit : splitSign (Text.stripBy alphabet.isBlank cs) with ⟨negative, body⟩
    simp only [readInteger, hsplit] at h
    obtain ⟨digits, hdigits, hrest⟩ := Option.bind_eq_some_iff.mp h
    split at hrest
    next hlimit =>
      have hrun := digitRun_of_digitRun? hdigits
      obtain rfl := Option.some.inj hrest
      refine ⟨negative, body, digits, isSigned_of_splitSign hsplit, hrun, hlimit, ?_⟩
      rw [signed_eq, ofDigits_eq]
    next => contradiction
  · rintro ⟨negative, body, digits, hsigned, hrun, hlimit, rfl⟩
    have hsplit := (hrun.isBody hclear).splitSign_stripBy hclear.isBlank_of_mark hsigned
    have hdigits := (digitRun?_eq_some_iff hunderscore).mpr hrun
    simp only [readInteger, hsplit, hdigits, digitLimit, Option.bind_eq_bind, Option.bind_some,
      if_pos hlimit, signed_eq, ofDigits_eq]
    rfl

/-! ## The alphabets -/

theorem forall_mem_marks {p : Char → Prop} :
    (∀ c ∈ marks, p c) ↔ p '_' ∧ p '+' ∧ p '-' ∧ p '.' ∧ p 'e' ∧ p 'E' := by
  simp only [marks, List.forall_mem_cons, List.not_mem_nil, false_implies, implies_true, and_true]

/-- The runs of digits in the table lie between the blanks. -/
theorem zeroDigits_apart_of_blanks : ∀ start ∈ Text.zeroDigits,
    0x20 < start ∧ (start + 10 ≤ 0x85 ∨ 0xA0 < start) ∧
      (start + 10 ≤ 0x1680 ∨ 0x1680 < start) ∧ (start + 10 ≤ 0x2000 ∨ 0x3000 < start) := by
  decide

theorem isBlank_of_digitValue? {d : Nat} (h : Text.digitValue? c = some d) :
    Text.isBlank c = false := by
  obtain ⟨start, hstart, -⟩ := Option.map_eq_some_iff.mp h
  have hin := List.find?_some hstart
  have hapart := zeroDigits_apart_of_blanks start (List.mem_of_find?_eq_some hstart)
  simp only [Bool.and_eq_true, decide_eq_true_eq] at hin
  simp only [Text.isBlank, Text.isWhiteSpace, Bool.or_eq_false_iff, Bool.and_eq_false_iff,
    decide_eq_false_iff_not, beq_eq_false_iff_ne]
  omega

theorem isWhiteSpace_of_isBlank (h : Text.isBlank c = false) : Text.isWhiteSpace c = false := by
  rw [Text.isBlank, Bool.or_eq_false_iff] at h
  exact h.1

theorem Alphabet.isClear_unicode : Alphabet.unicode.IsClear where
  digit?_of_mark := forall_mem_marks.mpr (by decide)
  isBlank_of_mark := forall_mem_marks.mpr (by decide)
  isBlank_of_digit := fun _ _ h => isWhiteSpace_of_isBlank (isBlank_of_digitValue? h)

theorem Alphabet.isClear_ascii : Alphabet.ascii.IsClear where
  digit?_of_mark := forall_mem_marks.mpr (by decide)
  isBlank_of_mark := forall_mem_marks.mpr (by decide)
  isBlank_of_digit := by
    intro c d h
    have hwide := isWhiteSpace_of_isBlank (isBlank_of_digitValue? (Text.digitValue?_of_ascii h))
    cases hblank : Text.isAsciiWhiteSpace c with
    | false => exact hblank
    | true =>
      rw [Text.isWhiteSpace_of_isAscii hblank] at hwide
      contradiction

end Pinfall.Number
