import Pinfall.Number.Integer

/-!
# Checked data

Checking outside data against a schema gives the data in its own type or all
complaints about it.  `Checked` is an applicative functor that goes on after a
complaint, so that the complaints of all parts are collected in order.
-/

namespace Pinfall.Schema

/-- Why a part of the data is refused. -/
inductive Cause where
  | missing
  | notText
  | unreadableText
  | notList
  | notInteger
  | unreadableInteger
  | oversizedInteger
  | fractionalInteger
  | notFinite
  | notTruthValue
  | unreadableTruthValue
  | below (least : Int)
  | above (most : Int)
  | tooLong (most : Nat)
  /-- A rule of the program itself, with its own wording. -/
  | broken (rule : String)
  | unknownField
  /-- The whole is no record of the named kind. -/
  | notRecord (kind : String)
  deriving DecidableEq

namespace Cause

/-- The code of a cause. -/
def code : Cause → String
  | .missing => "missing"
  | .notText => "string_type"
  | .unreadableText => "string_unicode"
  | .notList => "list_type"
  | .notInteger => "int_type"
  | .unreadableInteger => "int_parsing"
  | .oversizedInteger => "int_parsing_size"
  | .fractionalInteger => "int_from_float"
  | .notFinite => "finite_number"
  | .notTruthValue => "bool_type"
  | .unreadableTruthValue => "bool_parsing"
  | .below _ => "greater_than_equal"
  | .above _ => "less_than_equal"
  | .tooLong _ => "string_too_long"
  | .broken _ => "value_error"
  | .unknownField => "extra_forbidden"
  | .notRecord _ => "model_type"

/-- The wording of a cause. -/
def message : Cause → String
  | .missing => "Field required"
  | .notText => "Input should be a valid string"
  | .unreadableText =>
    "Input should be a valid string, unable to parse raw data as a unicode string"
  | .notList => "Input should be a valid list"
  | .notInteger => "Input should be a valid integer"
  | .unreadableInteger =>
    "Input should be a valid integer, unable to parse string as an integer"
  | .oversizedInteger =>
    "Unable to parse input string as an integer, exceeded maximum size"
  | .fractionalInteger =>
    "Input should be a valid integer, got a number with a fractional part"
  | .notFinite => "Input should be a finite number"
  | .notTruthValue => "Input should be a valid boolean"
  | .unreadableTruthValue => "Input should be a valid boolean, unable to interpret input"
  | .below least => "Input should be greater than or equal to " ++ Number.numeral least
  | .above most => "Input should be less than or equal to " ++ Number.numeral most
  | .tooLong most =>
    "String should have at most " ++ Number.numeral most ++ " characters"
  | .broken rule => "Value error, " ++ rule
  | .unknownField => "Extra inputs are not permitted"
  | .notRecord kind => "Input should be a valid dictionary or instance of " ++ kind

end Cause

/-- One step on the way to a part of the data. -/
inductive Step where
  | field (name : String)
  | item (index : Nat)
  deriving DecidableEq

/-- A refused part: the way to it and the cause. -/
structure Complaint where
  path : List Step
  cause : Cause
  deriving DecidableEq

/-- Data that passed its checks, or all complaints about it. -/
inductive Checked (α : Type) where
  | accepted (a : α)
  | refused (complaints : List Complaint)

namespace Checked

variable {α β : Type}

/-- Apply a checked function to checked data; the complaints about the function
come first. -/
def apply : Checked (α → β) → Checked α → Checked β
  | .accepted f, .accepted a => .accepted (f a)
  | .accepted _, .refused complaints => .refused complaints
  | .refused complaints, .accepted _ => .refused complaints
  | .refused complaints, .refused others => .refused (complaints ++ others)

instance : Applicative Checked where
  pure := .accepted
  seq f a := apply f (a ())

/-- All goes well only if both parts do. -/
theorem apply_eq_accepted_iff {f : Checked (α → β)} {a : Checked α} {b : β} :
    apply f a = .accepted b ↔ ∃ g x, f = .accepted g ∧ a = .accepted x ∧ g x = b := by
  cases f <;> cases a <;> simp [apply]

/-- Refuse the whole part. -/
def refuse (cause : Cause) : Checked α :=
  .refused [⟨[], cause⟩]

/-- The outcome of a check of a part that is reached by one more step. -/
def under (step : Step) : Checked α → Checked α
  | .accepted a => .accepted a
  | .refused complaints =>
    .refused (complaints.map fun complaint => { complaint with path := step :: complaint.path })

/-- Accept data only if it passes a further test. -/
def ensure (test : α → Option Cause) : Checked α → Checked α
  | .accepted a =>
    match test a with
    | none => .accepted a
    | some cause => refuse cause
  | .refused complaints => .refused complaints

end Checked

end Pinfall.Schema
