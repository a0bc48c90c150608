import Pinfall.Schema.Checked

/-!
# Integers in text fields

The spellings of an integer that a record field takes: a plain numeral with at
most a minus sign and no leading zeros, or a text that becomes one when it is
tidied up.  Tidying drops white space around it, a plus sign, a fraction of
zeros, leading zeros and single underscores.  A minus sign is set aside meanwhile;
one that comes to light behind leading zeros counts as well.
-/

namespace Pinfall.Schema.IntegerText

open Number

/-- A plain numeral: perhaps a minus sign, then digits without leading zeros, in
all no more characters than the limit.  The limit is looked at before anything
that follows the digits. -/
def plain (cs : List Char) : Except Cause Int :=
  let (negative, body) := match cs with
    | '-' :: rest => (true, rest)
    | _ => (false, cs)
  let digits := body.takeWhile Char.isDigit
  let rest := body.dropWhile Char.isDigit
  if digits.isEmpty then .error .unreadableInteger
  else if digits.head? = some '0' then
    if body = ['0'] then .ok 0 else .error .unreadableInteger
  else if digitLimit < cs.length - rest.length then .error .oversizedInteger
  else if rest.isEmpty then
    .ok (signed negative (ofDigits (digits.filterMap Text.asciiDigitValue?)))
  else .error .unreadableInteger

/-- Drop the first point and what follows it, if that is one zero or more and
nothing else. -/
def dropZeroFraction (cs : List Char) : List Char :=
  match cs.dropWhile (· ≠ '.') with
  | '.' :: '0' :: rest => if rest.all (· = '0') then cs.takeWhile (· ≠ '.') else cs
  | _ => cs

/-- Drop leading zeros, which may be mixed with underscores, but keep a last zero.
A digit or a minus sign must come next. -/
def dropLeadingZeros (cs : List Char) : Option (List Char) :=
  match cs with
  | '0' :: rest =>
    match rest.dropWhile fun c => c = '0' ∨ c = '_' with
    | [] => if cs.getLast? = some '0' then some ['0'] else none
    | c :: more => if c.isDigit ∨ c = '-' then some (c :: more) else none
  | c :: _ => if c.isDigit then some cs else none
  | [] => none

/-- Drop underscores that are single and neither first nor last; others stay. -/
def dropUnderscores (cs : List Char) : List Char :=
  if cs.head? = some '_' ∨ cs.getLast? = some '_' ∨ (cs.zip cs.tail).contains ('_', '_') then cs
  else cs.filter (· ≠ '_')

/-- Tidy up a text that is no plain numeral. -/
def tidy? (cs : List Char) : Option (List Char) := do
  let (negative, body) := splitSign (Text.stripBy Text.isWhiteSpace cs)
  let significant ← dropLeadingZeros (dropZeroFraction body)
  let numeral := dropUnderscores significant
  return if negative then '-' :: numeral else numeral

/-- The integer that a text spells.  Whatever is wrong with a text that had to be
tidied up, it is just unreadable. -/
def read (s : String) : Except Cause Int :=
  match plain s.toList with
  | .error .unreadableInteger =>
    match (tidy? s.toList).map plain with
    | some (.ok n) => .ok n
    | _ => .error .unreadableInteger
  | outcome => outcome

end Pinfall.Schema.IntegerText
