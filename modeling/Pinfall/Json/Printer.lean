import Pinfall.Json.Basic
import Pinfall.Number.Shortest

/-!
# Printing JSON

A document is printed on one line without spaces, or with one item to a line and
two spaces of indentation for each level.  In strings only the quote, the
backslash and the controls below the space are escaped.
-/

namespace Pinfall.Json

/-- What is printed between the items of a list at a depth, and after a key. -/
structure Layout where
  lineBreak : Nat → String
  colon : String

/-- Everything on one line, without spaces. -/
def Layout.compact : Layout :=
  ⟨fun _ => "", ":"⟩

/-- One item to a line, indented by two spaces for each level. -/
def Layout.indented : Layout :=
  ⟨fun depth => String.ofList ('\n' :: List.replicate (2 * depth) ' '), ": "⟩

/-- One character of a string: as itself, by a letter, or by its code. -/
def escapeChar (c : Char) : String :=
  if c = '\x22' then "\\\""
  else if c = '\\' then "\\\\"
  else if c = '\x08' then "\\b"
  else if c = '\t' then "\\t"
  else if c = '\n' then "\\n"
  else if c = '\x0c' then "\\f"
  else if c = '\r' then "\\r"
  else if c.toNat < 0x20 then "\\u" ++ Number.hexNumeral 4 c.toNat
  else c.toString

/-- A string with its quotes. -/
def quote (s : String) : String :=
  "\"" ++ String.join (s.toList.map escapeChar) ++ "\""

/-- Items between brackets, each on a line of its own where the layout breaks
lines. -/
def bracketed (layout : Layout) (depth : Nat) (opening closing : String)
    (items : List String) : String :=
  if items.isEmpty then opening ++ closing
  else
    opening ++ layout.lineBreak (depth + 1) ++
      String.intercalate ("," ++ layout.lineBreak (depth + 1)) items ++
      layout.lineBreak depth ++ closing

mutual

/-- The text of a document at a depth. -/
def write (layout : Layout) (depth : Nat) : Json → String
  | .null => "null"
  | .bool b => if b then "true" else "false"
  | .integer n => Number.numeral n
  | .real x => x.text
  | .string s => quote s
  | .array items => bracketed layout depth "[" "]" (writeItems layout (depth + 1) items)
  | .object fields =>
    bracketed layout depth "\x7b" "\x7d" (writeFields layout (depth + 1) fields)

/-- The texts of the items of an array. -/
def writeItems (layout : Layout) (depth : Nat) : List Json → List String
  | [] => []
  | item :: items => write layout depth item :: writeItems layout depth items

/-- The texts of the fields of an object. -/
def writeFields (layout : Layout) (depth : Nat) : List (String × Json) → List String
  | [] => []
  | field :: fields => writeField layout depth field :: writeFields layout depth fields

/-- A key, a colon and the value. -/
def writeField (layout : Layout) (depth : Nat) : String × Json → String
  | (key, item) => quote key ++ layout.colon ++ write layout depth item

end

/-- A document on one line. -/
def compact (j : Json) : String :=
  write .compact 0 j

/-- A document over several lines, indented by two spaces for each level. -/
def indented (j : Json) : String :=
  write .indented 0 j

end Pinfall.Json
