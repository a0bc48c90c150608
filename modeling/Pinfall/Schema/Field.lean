import Pinfall.Schema.IntegerText
import Pinfall.Value.Basic

/-!
# Fields of a record

What the fields of a record take: texts as they are; integers also as truth
values, as numbers without a fraction part and as text; truth values also as
zero or one and as a word; and lists of what their items take.  A byte string in
UTF-8 counts as the text that it holds.
-/

namespace Pinfall.Schema

/-- The text in a byte string, if it is valid UTF-8. -/
def utf8Text? (bytes : List UInt8) : Option String :=
  String.fromUTF8? (ByteArray.mk bytes.toArray)

/-- The text that a value stands for in a field. -/
def textOf : Value → Except Cause String
  | .text s => .ok s
  | .bytes bs =>
    match utf8Text? bs with
    | some s => .ok s
    | none => .error .unreadableText
  | _ => .error .notText

/-- A text. -/
def text (v : Value) : Checked String :=
  match textOf v with
  | .ok s => .accepted s
  | .error cause => .refuse cause

/-- A text or null. -/
def optionalText : Value → Checked (Option String)
  | .null => .accepted none
  | v => some <$> text v

/-- The integer that a number with a point stands for: one of a 64-bit word, the
least excepted. -/
def integerOfFloat (x : Number.Binary64) : Except Cause Int :=
  if !x.isFinite then .error .notFinite
  else
    match x.toInt? with
    | none => .error .fractionalInteger
    | some n =>
      if -Number.wordBound < n ∧ n < Number.wordBound then .ok n
      else .error .oversizedInteger

/-- The integer that a value stands for in a field. -/
def integerOf : Value → Except Cause Int
  | .bool b => .ok (if b then 1 else 0)
  | .int n => .ok n
  | .float x => integerOfFloat x
  | .text s => IntegerText.read s
  | .bytes bs =>
    match utf8Text? bs with
    | some s => IntegerText.read s
    | none => .error .unreadableInteger
  | _ => .error .notInteger

/-- An integer. -/
def integer (v : Value) : Checked Int :=
  match integerOf v with
  | .ok n => .accepted n
  | .error cause => .refuse cause

/-- An integer that is not below or above the bounds given. -/
def boundedInteger (least : Int) (most : Option Int) (v : Value) : Checked Int :=
  (integer v).ensure fun n =>
    if n < least then some (.below least)
    else
      match most with
      | some most => if most < n then some (.above most) else none
      | none => none

/-- The words for false. -/
def falseWords : List String := ["0", "off", "f", "false", "n", "no"]

/-- The words for true. -/
def trueWords : List String := ["1", "on", "t", "true", "y", "yes"]

/-- The truth value that a word stands for, in any case of ASCII letters. -/
def truthOfWord (s : String) : Except Cause Bool :=
  let word := String.ofList (s.toList.map Char.toLower)
  if falseWords.contains word then .ok false
  else if trueWords.contains word then .ok true
  else .error .unreadableTruthValue

/-- The truth value that an integer stands for: zero is false and one is true. -/
def truthOfInteger (n : Int) : Except Cause Bool :=
  if n = 0 then .ok false
  else if n = 1 then .ok true
  else .error .unreadableTruthValue

/-- The truth value that a value stands for in a field.  Numbers are of the right
kind only if they are integers of a 64-bit word. -/
def truthOf : Value → Except Cause Bool
  | .bool b => .ok b
  | .int n => if Number.FitsWord n then truthOfInteger n else .error .notTruthValue
  | .float x =>
    match integerOfFloat x with
    | .ok n => truthOfInteger n
    | .error _ => .error .notTruthValue
  | .text s => truthOfWord s
  | .bytes bs =>
    match utf8Text? bs with
    | some s => truthOfWord s
    | none => .error .unreadableTruthValue
  | _ => .error .notTruthValue

/-- A truth value. -/
def truthValue (v : Value) : Checked Bool :=
  match truthOf v with
  | .ok b => .accepted b
  | .error cause => .refuse cause

/-- The items of a list from an index on. -/
def itemsFrom {α : Type} (item : Value → Checked α) (index : Nat) :
    List Value → Checked (List α)
  | [] => .accepted []
  | v :: rest =>
    List.cons <$> (item v).under (.item index) <*> itemsFrom item (index + 1) rest

/-- A list. -/
def list {α : Type} (item : Value → Checked α) : Value → Checked (List α)
  | .list items => itemsFrom item 0 items
  | _ => .refuse .notList

/-- The fields of a record of the named kind, handed on to a check. -/
def record {α : Type} (kind : String) (check : List (String × Value) → Checked α) :
    Value → Checked α
  | .object fields => check fields
  | _ => .refuse (.notRecord kind)

/-- A field that must be there, under the first of its names that is; complaints
of a missing field go by its first name. -/
def required {α : Type} (name : String) (otherNames : List String)
    (check : Value → Checked α) (fields : List (String × Value)) : Checked α :=
  match (name :: otherNames).findSome? fun key => (fields.lookup key).map (key, ·) with
  | some (key, v) => (check v).under (.field key)
  | none => (Checked.refuse .missing).under (.field name)

/-- A field that is null when it is not there. -/
def optional {α : Type} (name : String) (check : Value → Checked α)
    (fields : List (String × Value)) : Checked α :=
  (check ((fields.lookup name).getD .null)).under (.field name)

/-- Accept no field other than the named ones. -/
def onlyFields (names : List String) (fields : List (String × Value)) : Checked Unit :=
  match fields.filter fun field => !names.contains field.1 with
  | [] => .accepted ()
  | unknown => .refused (unknown.map fun field => ⟨[.field field.1], .unknownField⟩)

end Pinfall.Schema
