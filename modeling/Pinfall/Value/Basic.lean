import Pinfall.Json.Basic

/-!
# Values

What a caller may hand over where a number of pins, a name or an identifier is
expected: anything at all, of which only some makes sense.

Texts are sequences of Unicode scalar values.  What holds a surrogate that is not
one of a pair, which neither a name nor an e-mail address may do, is outside the model.
-/

namespace Pinfall

/-- A value of any kind. -/
inductive Value where
  | null
  | bool (b : Bool)
  | int (n : Int)
  | float (x : Number.Binary64)
  | text (s : String)
  | bytes (bs : List UInt8)
  | list (items : List Value)
  | object (fields : List (String × Value))

namespace Value

instance : Inhabited Value := ⟨.null⟩

mutual

/-- The value that a JSON document describes. -/
def ofJson : Json → Value
  | .null => .null
  | .bool b => .bool b
  | .integer n => .int n
  | .real x => .float x
  | .string s => .text s
  | .array items => .list (ofItems items)
  | .object fields => .object (ofFields fields)

/-- The values of the items of an array. -/
def ofItems : List Json → List Value
  | [] => []
  | item :: items => ofJson item :: ofItems items

/-- The named values of the fields of an object. -/
def ofFields : List (String × Json) → List (String × Value)
  | [] => []
  | field :: fields => ofField field :: ofFields fields

/-- The named value of a field. -/
def ofField : String × Json → String × Value
  | (key, item) => (key, ofJson item)

end

/-- A text, or the null value. -/
def optionalText : Option String → Value
  | none => .null
  | some s => .text s

/-- Whether a value counts as present: not null, false, zero or empty. -/
def isPresent : Value → Bool
  | .null => false
  | .bool b => b
  | .int n => n ≠ 0
  | .float x => !x.isZero
  | .text s => !s.isEmpty
  | .bytes bs => !bs.isEmpty
  | .list items => !items.isEmpty
  | .object fields => !fields.isEmpty

end Value

end Pinfall
