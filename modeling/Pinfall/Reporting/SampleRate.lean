import Pinfall.Log
import Pinfall.Number.Decimal
import Pinfall.Number.Fixed
import Pinfall.Text.Quoted

/-!
# Sample rates

A sample rate is a number from zero to one, read from a setting.  A missing or
blank setting gives a default; so does one that is no such number, with a
warning.
-/

namespace Pinfall.Reporting

/-- Why a setting is no sample rate. -/
inductive RateError where
  | notANumber
  | outsideRange
  deriving DecidableEq

/-- The wording of a rate error. -/
def RateError.message : RateError → String
  | .notANumber => "is not a number"
  | .outsideRange => "is outside [0, 1]"

/-- The rate that a text spells. -/
def rateOf (raw : String) : Except RateError Number.Binary64 :=
  match Number.readBinary64 raw with
  | none => .error .notANumber
  | some rate => if rate.inUnitInterval then .ok rate else .error .outsideRange

/-- The warning that a setting is not used. -/
def rateWarning (name raw : String) (error : RateError) (default : Number.Binary64) :
    Log.Record :=
  ⟨.warning, .settings,
    name ++ "=" ++ Text.quoted raw ++ " " ++ error.message ++ "; using " ++ default.fixedTwo⟩

/-- The rate that the setting of the given name asks for, and the log. -/
def readRate (name : String) (raw : Option String) (default : Number.Binary64) :
    Number.Binary64 × List Log.Record :=
  match raw with
  | none => (default, [])
  | some raw =>
    if Text.isAllBlank raw then (default, [])
    else
      match rateOf raw with
      | .ok rate => (rate, [])
      | .error error => (default, [rateWarning name raw error default])

end Pinfall.Reporting
