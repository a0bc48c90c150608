import Pinfall.Number.Binary64

/-!
# JSON documents

A document keeps the order of its fields, and tells integers, which have any
size, from numbers written with a point or an exponent.
-/

namespace Pinfall

/-- A JSON document. -/
inductive Json where
  | null
  | bool (b : Bool)
  | integer (n : Int)
  | real (x : Number.Binary64)
  | string (s : String)
  | array (items : List Json)
  | object (fields : List (String × Json))

namespace Json

instance : Inhabited Json := ⟨.null⟩

/-- An array of integers. -/
def integers (ns : List Int) : Json :=
  .array (ns.map .integer)

/-- A text or null. -/
def optionalString : Option String → Json
  | none => .null
  | some s => .string s

/-- The first field of an object with the given name. -/
def field? (name : String) : Json → Option Json
  | .object fields => fields.lookup name
  | _ => none

end Json

end Pinfall
