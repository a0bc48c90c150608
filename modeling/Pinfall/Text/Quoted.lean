import Pinfall.Number.Integer
import Pinfall.Text.Printable

/-!
# Quoted text

A text or a byte string as a quoted literal on one line.  The quote is a single
one, unless the text holds a single quote and no double quote.  The quote and
the backslash are escaped by a backslash, tab, line feed and carriage return by
their letter, and every other character that cannot be printed by its code.
-/

namespace Pinfall.Text

/-- The quote that needs the fewer escapes: single unless only single quotes
occur in the text. -/
def quoteFor (cs : List Char) : Char :=
  if cs.contains '\x27' && !cs.contains '\x22' then '\x22' else '\x27'

/-- The escape of a code point in the narrowest of the three forms. -/
def codeEscape (n : Nat) : String :=
  if n < 0x100 then "\\x" ++ Number.hexNumeral 2 n
  else if n < 0x10000 then "\\u" ++ Number.hexNumeral 4 n
  else "\\U" ++ Number.hexNumeral 8 n

/-- One character of a literal between the given quotes. -/
def escapeChar (quote c : Char) : String :=
  if c = quote ∨ c = '\\' then String.ofList ['\\', c]
  else if c = '\t' then "\\t"
  else if c = '\n' then "\\n"
  else if c = '\r' then "\\r"
  else if isPrintable c then c.toString
  else codeEscape c.toNat

/-- A text as a quoted literal. -/
def quoted (s : String) : String :=
  let quote := quoteFor s.toList
  quote.toString ++ String.join (s.toList.map (escapeChar quote)) ++ quote.toString

/-- One byte of a literal between the given quotes: ASCII as in a text, the rest
by its code. -/
def escapeByte (quote : Char) (b : UInt8) : String :=
  if b < 0x80 then escapeChar quote (Char.ofNat b.toNat) else codeEscape b.toNat

/-- A byte string as a quoted literal, marked by a leading `b`. -/
def quotedBytes (bytes : List UInt8) : String :=
  let quote := quoteFor (bytes.map fun b => Char.ofNat b.toNat)
  "b" ++ quote.toString ++ String.join (bytes.map (escapeByte quote)) ++ quote.toString

end Pinfall.Text
