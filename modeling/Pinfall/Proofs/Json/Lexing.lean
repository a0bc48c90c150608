import Pinfall.Json.Printer
import Pinfall.Proofs.Json.Tokens
import Pinfall.Proofs.Number.Numeral
import Pinfall.Proofs.Text.Pieces

/-!
# Cutting printed texts into tokens

Numbers, strings and words are read back as what they were printed for.  A string is closed
by its quote, whereas a word or a number only ends where something else begins.  So what a
text in front of another one is cut into is said by `Prints` under a condition on the other.
-/

namespace Pinfall

namespace Json

theorem exists_digits?_toDigits (n : Nat) :
    ∃ digits, digits? (Nat.toDigits 10 n) = some digits ∧ Number.ofDigits digits = n ∧
      ¬(digits.head? = some 0 ∧ digits.length ≠ 1) := by
  refine ⟨(Nat.toDigits 10 n).map fun c => c.toNat - 48, ?_, ?_, ?_⟩
  · have hnonempty : (Nat.toDigits 10 n).isEmpty = false := by simp
    rw [digits?, hnonempty, if_neg Bool.false_ne_true]
    exact Text.mapM_eq_some_map fun c hc =>
      Text.asciiDigitValue?_of_isDigit (Number.isDigit_of_mem_toDigits hc)
  · exact Number.ofDigits_toDigits n
  · rintro ⟨hzero, hlength⟩
    rcases Nat.eq_zero_or_pos n with rfl | hpos
    · simp at hlength
    · obtain ⟨c, rest, hn, hc⟩ := Number.exists_toDigits_eq_cons hpos
      rw [hn, List.map_cons, List.head?_cons, Option.some.injEq] at hzero
      omega

/-- Digits are read as their number, with or without a minus sign. -/
theorem number?_of_digits? {cs : List Char} {digits : List Nat} (hcs : ∀ c ∈ cs, c.isDigit = true)
    (hdigits : digits? cs = some digits) (hzero : ¬(digits.head? = some 0 ∧ digits.length ≠ 1)) :
    number? cs = some (.integer (Number.ofDigits digits)) ∧
      number? ('-' :: cs) = some (.integer (-(Number.ofDigits digits : Int))) := by
  have hmantissa : Text.splitAtFirst (fun c => c = 'e' || c = 'E') cs = (cs, none) := by
    apply Text.splitAtFirst_of_forall
    intro c hc
    simp [Text.ne_of_class (hcs c hc)]
  have hwhole : Text.splitAtFirst (· = '.') cs = (cs, none) := by
    apply Text.splitAtFirst_of_forall
    intro c hc
    simp [Text.ne_of_class (hcs c hc)]
  constructor
  · unfold number?
    split
    next negative body h =>
      split at h
      · have hminus := hcs '-' List.mem_cons_self
        exact absurd hminus (by decide)
      · obtain ⟨rfl, rfl⟩ := Prod.mk.inj h
        simp [hmantissa, hwhole, hdigits, hzero, Number.signed]
  · simp [number?, hmantissa, hwhole, hdigits, hzero, Number.signed]

theorem number?_numeral (n : Int) : number? (Number.numeral n).toList = some (.integer n) := by
  obtain ⟨digits, hdigits, hvalue, hzero⟩ := exists_digits?_toDigits n.natAbs
  obtain ⟨hunsigned, hsigned⟩ :=
    number?_of_digits? (fun c hc => Number.isDigit_of_mem_toDigits hc) hdigits hzero
  rw [hvalue] at hunsigned hsigned
  rcases Int.lt_or_le n 0 with hn | hn
  · have habs : -(n.natAbs : Int) = n := by omega
    rw [Number.toList_numeral_of_neg hn, hsigned, habs]
  · have habs : (n.natAbs : Int) = n := by omega
    rw [Number.toList_numeral_of_nonneg hn, hunsigned, habs]

/-! ## Strings -/

theorem toList_hexNumeral (width n : Nat) :
    (Number.hexNumeral width n).toList =
      List.replicate (width - (Nat.toDigits 16 n).length) '0' ++ Nat.toDigits 16 n :=
  String.toList_ofList

/-- The code of a control is read as the control. -/
theorem exists_hexNumeral_eq {n : Nat} (h : n < 32) :
    ∃ a b c d digits, (Number.hexNumeral 4 n).toList = [a, b, c, d] ∧
      [a, b, c, d].mapM hexDigit? = some digits ∧
      digits.foldl (fun value digit => 16 * value + digit) 0 = n := by
  have hall : ∀ n < 32,
      let digits := List.replicate (4 - (Nat.toDigits 16 n).length) '0' ++ Nat.toDigits 16 n
      digits.length = 4 ∧ (digits.mapM hexDigit?).map
        (List.foldl (fun value digit => 16 * value + digit) 0) = some n := by decide
  obtain ⟨hlength, hvalue⟩ := hall n h
  rw [← toList_hexNumeral] at hlength hvalue
  obtain ⟨a, b, c, d, hlist⟩ :
      ∃ a b c d, (Number.hexNumeral 4 n).toList = [a, b, c, d] := by
    match hcs : (Number.hexNumeral 4 n).toList, hlength with
    | [a, b, c, d], _ => exact ⟨a, b, c, d, rfl⟩
  rw [hlist] at hvalue
  obtain ⟨digits, hdigits, hvalue⟩ := Option.map_eq_some_iff.mp hvalue
  exact ⟨a, b, c, d, digits, hlist, hdigits, hvalue⟩

/-- A code unit in front of what is read. -/
def unitBefore (unit : Nat) : List Nat × List Char → List Nat × List Char
  | (units, after) => (unit :: units, after)

theorem stringUnits?_letter {letter : Char} {unit : Nat} (hu : letter ≠ 'u')
    (hunit : letterEscape? letter = some unit) (rest : List Char) :
    stringUnits? ('\\' :: letter :: rest) = (stringUnits? rest).map (unitBefore unit) := by
  cases hrest : stringUnits? rest <;> simp [stringUnits?, hu, hunit, hrest, unitBefore]

theorem stringUnits?_code {a b c d : Char} {digits : List Nat}
    (hdigits : [a, b, c, d].mapM hexDigit? = some digits) (rest : List Char) :
    stringUnits? ('\\' :: 'u' :: a :: b :: c :: d :: rest) =
      (stringUnits? rest).map
        (unitBefore (digits.foldl (fun value digit => 16 * value + digit) 0)) := by
  cases hrest : stringUnits? rest <;> simp only [stringUnits?, hdigits, hrest] <;> rfl

theorem stringUnits?_plain {c : Char} (hquote : c ≠ '\x22') (hbackslash : c ≠ '\\')
    (hcontrol : ¬ c.toNat < 0x20) (rest : List Char) :
    stringUnits? (c :: rest) = (stringUnits? rest).map (unitBefore c.toNat) := by
  cases hrest : stringUnits? rest <;>
    simp [stringUnits?, hbackslash, hcontrol, hrest, unitBefore]

/-- A character of a string is read as its code point. -/
theorem stringUnits?_escapeChar (c : Char) (rest : List Char) :
    stringUnits? ((escapeChar c).toList ++ rest) =
      (stringUnits? rest).map (unitBefore c.toNat) := by
  unfold escapeChar
  -- The first seven cases are escaped by a letter.
  iterate 7
    split
    next h =>
      subst h
      exact stringUnits?_letter (by decide) rfl rest
  split
  next h =>
    obtain ⟨x, y, z, w, digits, hlist, hdigits, hvalue⟩ := exists_hexNumeral_eq h
    rw [String.toList_append, hlist, ← hvalue]
    exact stringUnits?_code hdigits rest
  next hquote hbackslash _ _ _ _ _ hcontrol =>
    have hlist : c.toString.toList = [c] := String.toList_singleton c
    rw [hlist]
    exact stringUnits?_plain hquote hbackslash hcontrol rest

theorem stringUnits?_join (cs rest : List Char) :
    stringUnits? ((String.join (cs.map escapeChar)).toList ++ '\x22' :: rest) =
      some (cs.map Char.toNat, rest) := by
  induction cs with
  | nil => rfl
  | cons c cs ih =>
    rw [List.map_cons, String.join_cons, String.toList_append, List.append_assoc,
      stringUnits?_escapeChar, ih]
    rfl

theorem joinSurrogates?_cons_cons {unit next : Nat} {units : List Nat}
    (hhigh : ¬(0xD800 ≤ unit ∧ unit < 0xDC00 ∧ 0xDC00 ≤ next ∧ next < 0xE000))
    (hunit : unit.isValidChar) :
    joinSurrogates? (unit :: next :: units) =
      (joinSurrogates? (next :: units)).bind fun rest => some (Char.ofNatAux unit hunit :: rest) :=
  (if_neg hhigh).trans (dif_pos hunit)

/-- No character is a surrogate, so that none is joined with the next one. -/
theorem joinSurrogates?_toNat (cs : List Char) :
    joinSurrogates? (cs.map Char.toNat) = some cs := by
  induction cs with
  | nil => rfl
  | cons c cs ih =>
    have hc : c.toNat.isValidChar := c.valid
    cases cs with
    | nil => exact dif_pos hc
    | cons d ds =>
      have hhigh : ¬(0xD800 ≤ c.toNat ∧ c.toNat < 0xDC00 ∧ 0xDC00 ≤ d.toNat ∧ d.toNat < 0xE000) := by
        unfold Nat.isValidChar at hc
        omega
      rw [List.map_cons] at ih
      rw [List.map_cons, List.map_cons, joinSurrogates?_cons_cons hhigh hc, ih]
      rfl

/-! ## Tokens -/

/-- The text is cut into these tokens. -/
def Lexes (cs : List Char) (toks : List Token) : Prop :=
  ∀ bound, cs.length ≤ bound → tokensWithin? .standard bound cs = some toks

/-- Neither a word nor a number goes on here. -/
def EndsToken (cs : List Char) : Prop :=
  ∀ c ∈ cs.head?, c.isAlpha = false ∧ isNumberChar c = false

variable {c : Char} {cs rest after : List Char} {toks part : List Token} {token : Token}

theorem lexes_nil : Lexes [] [] := by
  intro bound _
  cases bound <;> rfl

theorem Lexes.space (h : Lexes cs toks) (hc : isSpace c = true) : Lexes (c :: cs) toks := by
  intro bound hbound
  rw [List.length_cons] at hbound
  obtain ⟨bound, rfl⟩ := Nat.exists_eq_add_one.mpr (Nat.zero_lt_of_lt hbound)
  rw [tokensWithin?, if_pos hc]
  exact h bound (by omega)

theorem Lexes.blanks_append {blanks : List Char} (h : Lexes cs toks)
    (hblanks : ∀ c ∈ blanks, isSpace c = true) : Lexes (blanks ++ cs) toks := by
  induction blanks with
  | nil => exact h
  | cons c blanks ih =>
    have hrest := ih fun d hd => hblanks d (List.mem_cons_of_mem c hd)
    exact hrest.space (hblanks c List.mem_cons_self)

theorem Lexes.cons (h : Lexes after toks) (hc : isSpace c = false)
    (htoken : token? .standard c cs = some (token, after)) (hlength : after.length ≤ cs.length) :
    Lexes (c :: cs) (token :: toks) := by
  intro bound hbound
  rw [List.length_cons] at hbound
  obtain ⟨bound, rfl⟩ := Nat.exists_eq_add_one.mpr (Nat.zero_lt_of_lt hbound)
  have hafter := h bound (by omega)
  simp [tokensWithin?, hc, htoken, hafter]

theorem eq_of_isSpace (h : isSpace c = true) : c = ' ' ∨ c = '\t' ∨ c = '\n' ∨ c = '\r' := by
  simpa [isSpace, or_assoc] using h

/-- A character of a class that has no blank in it is no blank. -/
theorem isSpace_eq_false_of {p : Char → Bool} (hc : p c = true)
    (hp : [' ', '\t', '\n', '\r'].any p = false) : isSpace c = false := by
  cases hspace : isSpace c with
  | false => rfl
  | true =>
    have hmem : c ∈ [' ', '\t', '\n', '\r'] := by simpa using eq_of_isSpace hspace
    have hany := List.any_eq_true.mpr ⟨c, hmem, hc⟩
    rw [hp] at hany
    contradiction

theorem takeWhile_append_of_endsToken {p : Char → Bool} (hcs : ∀ c ∈ cs, p c = true)
    (hrest : ∀ c ∈ rest.head?, p c = false) :
    (cs ++ rest).takeWhile p = cs ∧ (cs ++ rest).dropWhile p = rest := by
  rw [List.takeWhile_append_of_pos hcs, List.dropWhile_append_of_pos hcs]
  cases rest with
  | nil => simp
  | cons c rest =>
    have hc : p c = false := hrest c rfl
    simp [hc]

/-- A letter starts a word. -/
theorem token?_of_isAlpha (hc : c.isAlpha = true) :
    token? .standard c cs = (standardWord? (c :: cs.takeWhile Char.isAlpha)).map
      fun token => (token, cs.dropWhile Char.isAlpha) := by
  have hne : ∀ d : Char, d.isAlpha = false → c ≠ d := fun d hd => Text.ne_of_class hc hd
  have hstarts : startsWord .standard c cs = true := by simp [startsWord, hc]
  simp only [token?, hne '[' rfl, hne ']' rfl, hne '\x7b' rfl, hne '\x7d' rfl, hne ',' rfl,
    hne ':' rfl, hne '\x22' rfl, hstarts, word?, if_false, if_true]
  cases standardWord? (c :: cs.takeWhile Char.isAlpha) <;> rfl

/-- A sign or a digit starts a number. -/
theorem token?_of_isNumberChar (hc : isNumberChar c = true) (halpha : c.isAlpha = false) :
    token? .standard c cs = (number? (c :: cs.takeWhile isNumberChar)).map
      fun token => (token, cs.dropWhile isNumberChar) := by
  have hne : ∀ d : Char, isNumberChar d = false → c ≠ d := fun d hd => Text.ne_of_class hc hd
  have hstarts : startsWord .standard c cs = false := by simp [startsWord, halpha]
  simp only [token?, hne '[' rfl, hne ']' rfl, hne '\x7b' rfl, hne '\x7d' rfl, hne ',' rfl,
    hne ':' rfl, hne '\x22' rfl, hstarts, if_false, Bool.false_eq_true]
  cases number? (c :: cs.takeWhile isNumberChar) <;> rfl

/-- However the text goes on after it, the part of a text in front is cut into these
tokens.  After a word or a number something else has to come. -/
def Prints (cs : List Char) (part : List Token) : Prop :=
  ∀ rest toks, EndsToken rest → Lexes rest toks → Lexes (cs ++ rest) (part ++ toks)

theorem prints_of_token? (hspace : isSpace c = false)
    (htoken : ∀ rest, EndsToken rest → token? .standard c (cs ++ rest) = some (token, rest)) :
    Prints (c :: cs) [token] := by
  intro rest toks hends hrest
  exact hrest.cons hspace (htoken rest hends) (by simp)

theorem prints_word (hletters : (c :: cs).all Char.isAlpha = true)
    (hword : standardWord? (c :: cs) = some token) : Prints (c :: cs) [token] := by
  have halpha := List.all_eq_true.mp hletters
  have hc : c.isAlpha = true := halpha c List.mem_cons_self
  apply prints_of_token?
  · exact isSpace_eq_false_of hc rfl
  · intro rest hends
    obtain ⟨htake, hdrop⟩ := takeWhile_append_of_endsToken
      (fun d hd => halpha d (List.mem_cons_of_mem c hd)) (fun d hd => (hends d hd).1)
    rw [token?_of_isAlpha hc, htake, hdrop, hword]
    rfl

theorem prints_null : Prints "null".toList [.null] := by
  change Prints ['n', 'u', 'l', 'l'] [.null]
  exact prints_word rfl rfl

theorem prints_bool (b : Bool) : Prints (if b then "true" else "false").toList [.bool b] := by
  cases b with
  | false =>
    change Prints ['f', 'a', 'l', 's', 'e'] [.bool false]
    exact prints_word rfl rfl
  | true =>
    change Prints ['t', 'r', 'u', 'e'] [.bool true]
    exact prints_word rfl rfl

theorem prints_number (hnumber : ∀ d ∈ c :: cs, isNumberChar d = true) (halpha : c.isAlpha = false)
    (hvalue : number? (c :: cs) = some token) : Prints (c :: cs) [token] := by
  have hc : isNumberChar c = true := hnumber c List.mem_cons_self
  apply prints_of_token?
  · exact isSpace_eq_false_of hc rfl
  · intro rest hends
    obtain ⟨htake, hdrop⟩ := takeWhile_append_of_endsToken
      (fun d hd => hnumber d (List.mem_cons_of_mem c hd)) (fun d hd => (hends d hd).2)
    rw [token?_of_isNumberChar hc halpha, htake, hdrop, hvalue]
    rfl

theorem prints_numeral (n : Int) : Prints (Number.numeral n).toList [.integer n] := by
  have hdigit : ∀ d ∈ Nat.toDigits 10 n.natAbs, isNumberChar d = true := by
    intro d hd
    simp [isNumberChar, Number.isDigit_of_mem_toDigits hd]
  have hvalue := number?_numeral n
  rcases Int.lt_or_le n 0 with hn | hn
  · rw [Number.toList_numeral_of_neg hn] at hvalue ⊢
    exact prints_number (List.forall_mem_cons.mpr ⟨rfl, hdigit⟩) rfl hvalue
  · rw [Number.toList_numeral_of_nonneg hn] at hvalue ⊢
    cases hlist : Nat.toDigits 10 n.natAbs with
    | nil => simp at hlist
    | cons c cs =>
      rw [hlist] at hvalue hdigit
      have hc : c.isDigit = true := by
        apply Number.isDigit_of_mem_toDigits
        rw [hlist]
        exact List.mem_cons_self
      exact prints_number hdigit (Text.isAlpha_eq_false_of_isDigit hc) hvalue

theorem prints_quote (s : String) : Prints (quote s).toList [.string s] := by
  have hlist : (quote s).toList =
      '\x22' :: ((String.join (s.toList.map escapeChar)).toList ++ ['\x22']) := by
    simp [quote]
  rw [hlist]
  apply prints_of_token? rfl
  intro rest _
  have hunits := stringUnits?_join s.toList rest
  simp only [token?, List.append_assoc, List.singleton_append, hunits, if_true]
  simp [joinSurrogates?_toNat]

end Json
end Pinfall
