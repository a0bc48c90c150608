import Pinfall.Text.Blank
import Pinfall.Text.DecimalDigit

/-!
# Integers as text

An integer is written in decimal without leading zeros.  Reading is more
liberal: blanks around the number, one sign, leading zeros, and single
underscores between digits are accepted, but no more than `digitLimit` digits.
Which characters are blanks and digits is a parameter, the `Alphabet`.  Integers
have no bounds here; `FitsWord` tells those of a 64-bit word.  Nor has `numeral`
any, but the program prints only the integers that `IsPrintable` tells.
-/

namespace Pinfall.Number

/-- The blanks that may surround a number and the digits that may form it. -/
structure Alphabet where
  isBlank : Char → Bool
  digit? : Char → Option Nat

/-- White space and decimal digits of all scripts. -/
def Alphabet.unicode : Alphabet :=
  ⟨Text.isWhiteSpace, Text.digitValue?⟩

/-- White space and digits within ASCII. -/
def Alphabet.ascii : Alphabet :=
  ⟨Text.isAsciiWhiteSpace, Text.asciiDigitValue?⟩

/-- The most digits that an integer may be read from or printed with. -/
def digitLimit : Nat := 4300

/-- The integers of a 64-bit word go from minus this number up to it, itself left
out. -/
def wordBound : Int := 0x8000000000000000

/-- A signed 64-bit word can hold the integer. -/
def FitsWord (n : Int) : Prop := -wordBound ≤ n ∧ n < wordBound

instance : DecidablePred FitsWord := fun n =>
  inferInstanceAs (Decidable (-wordBound ≤ n ∧ n < wordBound))

/-- The number with the given decimal digits, the highest first. -/
def ofDigits (digits : List Nat) : Nat :=
  digits.foldl (fun value digit => 10 * value + digit) 0

/-- The integer with the given sign and magnitude. -/
def signed (negative : Bool) (magnitude : Nat) : Int :=
  if negative then -(magnitude : Int) else magnitude

/-- Split off one leading sign; the flag tells a minus. -/
def splitSign : List Char → Bool × List Char
  | '-' :: rest => (true, rest)
  | '+' :: rest => (false, rest)
  | cs => (false, cs)

/-- The digits of a run such as `1_000`: one digit or more, and single
underscores only between two digits. -/
def digitRun? (digit? : Char → Option Nat) : List Char → Option (List Nat)
  | [] => none
  | [c] => (digit? c).map ([·])
  | c :: '_' :: rest => do
    let digit ← digit? c
    let digits ← digitRun? digit? rest
    return digit :: digits
  | c :: rest => do
    let digit ← digit? c
    let digits ← digitRun? digit? rest
    return digit :: digits

/-- Read an integer over an alphabet. -/
def readInteger (alphabet : Alphabet) (cs : List Char) : Option Int := do
  let (negative, body) := splitSign (Text.stripBy alphabet.isBlank cs)
  let digits ← digitRun? alphabet.digit? body
  if digits.length ≤ digitLimit then
    return signed negative (ofDigits digits)
  else
    none

/-- The decimal numeral of an integer. -/
def numeral (n : Int) : String :=
  if n < 0 then "-" ++ Nat.repr n.natAbs else Nat.repr n.natAbs

/-- The integer has no more digits than may be printed; its sign does not count. -/
def IsPrintable (n : Int) : Prop := (Nat.toDigits 10 n.natAbs).length ≤ digitLimit

instance : DecidablePred IsPrintable := fun n =>
  inferInstanceAs (Decidable ((Nat.toDigits 10 n.natAbs).length ≤ digitLimit))

/-- The wording of the refusal to print an integer. -/
def unprintableMessage : String :=
  "Exceeds the limit (" ++ numeral digitLimit ++ " digits) for integer string conversion; " ++
    "use sys.set_int_max_str_digits() to increase the limit"

/-- A number in hexadecimal with lower-case digits, filled up with zeros on the
left to at least `width` digits. -/
def hexNumeral (width n : Nat) : String :=
  let digits := Nat.toDigits 16 n
  String.ofList (List.replicate (width - digits.length) '0' ++ digits)

end Pinfall.Number
