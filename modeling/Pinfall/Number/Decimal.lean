import Pinfall.Number.Binary64
import Pinfall.Number.Integer
import Pinfall.Text.Split

/-!
# Decimal literals

Reading a decimal literal, with or without a point and an exponent, or one of
the words for infinity and NaN, as the nearest double-precision number.  There
is no limit on the number of digits or on the exponent.
-/

namespace Pinfall.Number

/-- What a decimal literal denotes exactly. -/
inductive Decimal where
  /-- The value `± coefficient * 10 ^ exponent`. -/
  | finite (negative : Bool) (coefficient : Nat) (exponent : Int)
  | infinite (negative : Bool)
  | nan (negative : Bool)
  deriving DecidableEq

namespace Decimal

/-- A run of digits that may be missing altogether. -/
def optionalRun? (digit? : Char → Option Nat) (cs : List Char) : Option (List Nat) :=
  if cs.isEmpty then some [] else digitRun? digit? cs

/-- The exponent after its mark: a signed run of digits; zero without a mark. -/
def exponent? (digit? : Char → Option Nat) : Option (List Char) → Option Int
  | none => some 0
  | some cs => do
    let (negative, body) := splitSign cs
    let digits ← digitRun? digit? body
    return signed negative (ofDigits digits)

/-- Digits with at most one point among them, and digits on one side of it at
least; then perhaps an exponent. -/
def finite? (digit? : Char → Option Nat) (negative : Bool) (cs : List Char) :
    Option Decimal := do
  let (mantissa, exponentPart) := Text.splitAtFirst (fun c => c = 'e' || c = 'E') cs
  let (wholePart, fractionPart) := Text.splitAtFirst (· = '.') mantissa
  let whole ← optionalRun? digit? wholePart
  let fraction ← optionalRun? digit? (fractionPart.getD [])
  let exponent ← exponent? digit? exponentPart
  if whole.isEmpty && fraction.isEmpty then
    none
  else
    return .finite negative (ofDigits (whole ++ fraction)) (exponent - fraction.length)

/-- Read a literal over an alphabet: blanks around it, one sign, and the words
for infinity and NaN in any case. -/
def read? (alphabet : Alphabet) (cs : List Char) : Option Decimal :=
  let (negative, body) := splitSign (Text.stripBy alphabet.isBlank cs)
  let word := body.map Char.toLower
  if word = "inf".toList || word = "infinity".toList then some (.infinite negative)
  else if word = "nan".toList then some (.nan negative)
  else finite? alphabet.digit? negative body

/-- The double-precision number nearest to what is denoted. -/
def toBinary64 : Decimal → Binary64
  | .finite negative coefficient exponent =>
    Binary64.ofDecimal negative coefficient exponent
  | .infinite negative => Binary64.infinity negative
  | .nan negative => Binary64.nan negative

end Decimal

/-- The double-precision number that a text denotes. -/
def readBinary64 (s : String) : Option Binary64 :=
  (Decimal.read? .unicode s.toList).map Decimal.toBinary64

end Pinfall.Number
