import Pinfall.Json.Basic
import Pinfall.Schema.Field

/-!
# Problems

A problem is what a caller is told about a refused request: a title, a code, and
perhaps a detail.
-/

namespace Pinfall

/-- The report of a refused request. -/
structure Problem where
  title : String
  detail : Option String
  code : String
  deriving DecidableEq

namespace Problem

/-- The record of a problem. -/
def toJson (problem : Problem) : Json :=
  .object
    [("title", .string problem.title), ("detail", Json.optionalString problem.detail),
      ("code", .string problem.code)]

/-- Check a record of a problem; the detail may be null or missing. -/
def check : Value → Schema.Checked Problem :=
  Schema.record "ProblemDetail" fun fields =>
    Problem.mk <$> Schema.required "title" [] Schema.text fields
      <*> Schema.optional "detail" Schema.optionalText fields
      <*> Schema.required "code" [] Schema.text fields

end Problem

end Pinfall
