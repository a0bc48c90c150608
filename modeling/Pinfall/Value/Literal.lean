import Pinfall.Number.Shortest
import Pinfall.Text.Quoted
import Pinfall.Value.Basic

/-!
# Values as text

`literal` writes a value so that its kind can be told: text and bytes quoted,
numbers with a fraction always with a point or an exponent, lists and objects
with their parts as literals.  `display` is the same, except that a text on its
own is shown as it is.

A value cannot be printed if an integer that is too long stands anywhere in it.
`literal` and `display` are meant for the other values, which `isPrintable` tells;
`print?` makes the distinction.
-/

namespace Pinfall.Value

mutual

/-- A value as a literal. -/
def literal : Value → String
  | .null => "None"
  | .bool b => if b then "True" else "False"
  | .int n => Number.numeral n
  | .float x => x.text
  | .text s => Text.quoted s
  | .bytes bs => Text.quotedBytes bs
  | .list items => "[" ++ String.intercalate ", " (literals items) ++ "]"
  | .object fields => "\x7b" ++ String.intercalate ", " (fieldLiterals fields) ++ "\x7d"

/-- The literals of the items of a list. -/
def literals : List Value → List String
  | [] => []
  | item :: items => literal item :: literals items

/-- The literals of the fields of an object. -/
def fieldLiterals : List (String × Value) → List String
  | [] => []
  | field :: fields => fieldLiteral field :: fieldLiterals fields

/-- A quoted key, a colon and the value. -/
def fieldLiteral : String × Value → String
  | (key, item) => Text.quoted key ++ ": " ++ literal item

end

mutual

/-- Whether all integers in a value can be printed. -/
def isPrintable : Value → Bool
  | .int n => Number.IsPrintable n
  | .list items => arePrintable items
  | .object fields => fieldsArePrintable fields
  | _ => true

/-- Whether the items of a list can be printed. -/
def arePrintable : List Value → Bool
  | [] => true
  | item :: items => isPrintable item && arePrintable items

/-- Whether the fields of an object can be printed. -/
def fieldsArePrintable : List (String × Value) → Bool
  | [] => true
  | field :: fields => fieldIsPrintable field && fieldsArePrintable fields

/-- Whether the value of a field can be printed. -/
def fieldIsPrintable : String × Value → Bool
  | (_, item) => isPrintable item

end

/-- A value as it is shown in a message. -/
def display : Value → String
  | .text s => s
  | v => literal v

/-- A value as it is shown in a message, if it can be printed. -/
def print? (v : Value) : Option String :=
  if v.isPrintable then some v.display else none

end Pinfall.Value
