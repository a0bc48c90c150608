import Pinfall.Json.Basic
import Pinfall.Number.Decimal

/-!
# Reading JSON

A text is first cut into tokens, which drops the blanks between them; the tokens
are then read as one document.  Reading is strict: no leading zeros, no bare
points, no trailing commas, no lone surrogates, and nothing after the document.
The extended dialect differs in one thing only: it has words for the numbers that
no numeral stands for.
-/

namespace Pinfall.Json

/-- What a text may hold besides the standard grammar. -/
inductive Dialect where
  /-- Nothing. -/
  | standard
  /-- The words `NaN`, `Infinity` and `-Infinity`. -/
  | extended
  deriving DecidableEq

/-- The smallest parts of a JSON text. -/
inductive Token where
  | openArray
  | closeArray
  | openObject
  | closeObject
  | comma
  | colon
  | null
  | bool (b : Bool)
  | integer (n : Int)
  | real (x : Number.Binary64)
  | string (s : String)

/-- The four characters that may stand between tokens. -/
def isSpace (c : Char) : Bool :=
  c = ' ' || c = '\t' || c = '\n' || c = '\r'

/-- The characters that numbers are made of. -/
def isNumberChar (c : Char) : Bool :=
  c.isDigit || c = '-' || c = '+' || c = '.' || c = 'e' || c = 'E'

/-- The value of a hexadecimal digit. -/
def hexDigit? (c : Char) : Option Nat :=
  if '0' ≤ c ∧ c ≤ '9' then some (c.toNat - '0'.toNat)
  else if 'a' ≤ c ∧ c ≤ 'f' then some (c.toNat - 'a'.toNat + 10)
  else if 'A' ≤ c ∧ c ≤ 'F' then some (c.toNat - 'A'.toNat + 10)
  else none

/-- The code point that a letter stands for after a backslash. -/
def letterEscape? : Char → Option Nat
  | '\x22' => some 0x22
  | '\\' => some 0x5C
  | '/' => some 0x2F
  | 'b' => some 0x08
  | 't' => some 0x09
  | 'n' => some 0x0A
  | 'f' => some 0x0C
  | 'r' => some 0x0D
  | _ => none

/-- The code units of a string up to its closing quote, and the text after it.
An escape by code gives a unit of sixteen bits, every other character its code
point. -/
def stringUnits? : List Char → Option (List Nat × List Char)
  | [] => none
  | '\x22' :: rest => some ([], rest)
  | '\\' :: 'u' :: a :: b :: c :: d :: rest => do
    let digits ← [a, b, c, d].mapM hexDigit?
    let (units, after) ← stringUnits? rest
    return (digits.foldl (fun value digit => 16 * value + digit) 0 :: units, after)
  | '\\' :: c :: rest => do
    let unit ← letterEscape? c
    let (units, after) ← stringUnits? rest
    return (unit :: units, after)
  | c :: rest => do
    if c.toNat < 0x20 then none
    let (units, after) ← stringUnits? rest
    return (c.toNat :: units, after)

/-- Join pairs of surrogates; a lone one is refused. -/
def joinSurrogates? : List Nat → Option (List Char)
  | [] => some []
  | [unit] => if h : unit.isValidChar then some [Char.ofNatAux unit h] else none
  | high :: low :: units => do
    if 0xD800 ≤ high ∧ high < 0xDC00 ∧ 0xDC00 ≤ low ∧ low < 0xE000 then
      let rest ← joinSurrogates? units
      return Char.ofNat (0x10000 + (high - 0xD800) * 0x400 + (low - 0xDC00)) :: rest
    else if h : high.isValidChar then
      let rest ← joinSurrogates? (low :: units)
      return Char.ofNatAux high h :: rest
    else
      none

/-- One ASCII digit or more. -/
def digits? (cs : List Char) : Option (List Nat) :=
  if cs.isEmpty then none else cs.mapM Text.asciiDigitValue?

/-- A number without leading zeros; an integer if neither a point nor an
exponent is written. -/
def number? (cs : List Char) : Option Token := do
  let (negative, body) := match cs with
    | '-' :: rest => (true, rest)
    | _ => (false, cs)
  let (mantissa, exponentPart) := Text.splitAtFirst (fun c => c = 'e' || c = 'E') body
  let (wholePart, fractionPart) := Text.splitAtFirst (· = '.') mantissa
  let whole ← digits? wholePart
  if whole.head? = some 0 ∧ whole.length ≠ 1 then none
  match fractionPart, exponentPart with
  | none, none => return .integer (Number.signed negative (Number.ofDigits whole))
  | _, _ =>
    let fraction ← match fractionPart with
      | none => some []
      | some part => digits? part
    let exponent ← Number.Decimal.exponent? Text.asciiDigitValue? exponentPart
    return .real (Number.Binary64.ofDecimal negative (Number.ofDigits (whole ++ fraction))
      (exponent - fraction.length))

/-- The words of the standard grammar: `null`, `true` and `false`. -/
def standardWord? (cs : List Char) : Option Token :=
  if cs = "null".toList then some .null
  else if cs = "true".toList then some (.bool true)
  else if cs = "false".toList then some (.bool false)
  else none

/-- The words for numbers that no numeral stands for. -/
def numberWord? (cs : List Char) : Option Token :=
  if cs = "NaN".toList then some (.real (.nan false))
  else if cs = "Infinity".toList then some (.real (.infinity false))
  else if cs = "-Infinity".toList then some (.real (.infinity true))
  else none

/-- The words of a dialect. -/
def word? : Dialect → List Char → Option Token
  | .standard, cs => standardWord? cs
  | .extended, cs => (standardWord? cs).or (numberWord? cs)

/-- A word starts here, not a number: with a letter or, in the extended dialect,
with a minus sign in front of one. -/
def startsWord (dialect : Dialect) (c : Char) (rest : List Char) : Bool :=
  c.isAlpha || (dialect = .extended && c = '-' && rest.head?.any Char.isAlpha)

/-- The token that starts with the given character, and the text after it. -/
def token? (dialect : Dialect) (c : Char) (rest : List Char) : Option (Token × List Char) :=
  if c = '[' then some (.openArray, rest)
  else if c = ']' then some (.closeArray, rest)
  else if c = '\x7b' then some (.openObject, rest)
  else if c = '\x7d' then some (.closeObject, rest)
  else if c = ',' then some (.comma, rest)
  else if c = ':' then some (.colon, rest)
  else if c = '\x22' then do
    let (units, after) ← stringUnits? rest
    let chars ← joinSurrogates? units
    return (.string (String.ofList chars), after)
  else if startsWord dialect c rest then do
    let token ← word? dialect (c :: rest.takeWhile Char.isAlpha)
    return (token, rest.dropWhile Char.isAlpha)
  else do
    let token ← number? (c :: rest.takeWhile isNumberChar)
    return (token, rest.dropWhile isNumberChar)

/-- Cut a text into tokens.  The bound is on their number. -/
def tokensWithin? (dialect : Dialect) : Nat → List Char → Option (List Token)
  | _, [] => some []
  | 0, _ => none
  | bound + 1, c :: rest =>
    if isSpace c then tokensWithin? dialect bound rest
    else do
      let (token, after) ← token? dialect c rest
      let tokens ← tokensWithin? dialect bound after
      return token :: tokens

/-- The tokens of a text: no more of them than characters. -/
def tokens? (dialect : Dialect) (cs : List Char) : Option (List Token) :=
  tokensWithin? dialect cs.length cs

mutual

/-- Read one document and give back the tokens after it.  The bound is on the
depth of the reading. -/
def document? : Nat → List Token → Option (Json × List Token)
  | 0, _ => none
  | _ + 1, [] => none
  | bound + 1, token :: rest =>
    match token with
    | .null => some (.null, rest)
    | .bool b => some (.bool b, rest)
    | .integer n => some (.integer n, rest)
    | .real x => some (.real x, rest)
    | .string s => some (.string s, rest)
    | .openArray =>
      match rest with
      | .closeArray :: after => some (.array [], after)
      | _ => (items? bound rest).map fun (items, after) => (.array items, after)
    | .openObject =>
      match rest with
      | .closeObject :: after => some (.object [], after)
      | _ => (fields? bound rest).map fun (fields, after) => (.object fields, after)
    | _ => none

/-- Read one item or more, up to the closing bracket. -/
def items? : Nat → List Token → Option (List Json × List Token)
  | 0, _ => none
  | bound + 1, tokens => do
    let (item, rest) ← document? bound tokens
    match rest with
    | .closeArray :: after => return ([item], after)
    | .comma :: after =>
      let (items, after) ← items? bound after
      return (item :: items, after)
    | _ => none

/-- Read one field or more, up to the closing brace. -/
def fields? : Nat → List Token → Option (List (String × Json) × List Token)
  | 0, _ => none
  | bound + 1, tokens =>
    match tokens with
    | .string key :: .colon :: rest => do
      let (item, rest) ← document? bound rest
      match rest with
      | .closeObject :: after => return ([(key, item)], after)
      | .comma :: after =>
        let (fields, after) ← fields? bound after
        return ((key, item) :: fields, after)
      | _ => none
    | _ => none

end

/-- The document that a text in a dialect holds, with nothing else in it but
blanks. -/
def parseIn? (dialect : Dialect) (s : String) : Option Json := do
  let tokens ← tokens? dialect s.toList
  match document? (tokens.length + 1) tokens with
  | some (document, []) => some document
  | _ => none

/-- The document that a text holds by the standard grammar. -/
def parse? (s : String) : Option Json :=
  parseIn? .standard s

end Pinfall.Json
