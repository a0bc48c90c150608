import Pinfall.Number.Integer
import Pinfall.Value.Basic

/-!
# Pins

How many pins a value stands for.  An integer stands for itself, a number with a
fraction part of zero for its integer, a text or a byte string for the integer
it spells; everything else, truth values included, for no number of pins.
-/

namespace Pinfall

/-- The pins in a full rack. -/
def fullRack : Int := 10

/-- The integer that a value stands for, if any. -/
def Value.integer? : Value → Option Int
  | .int n => some n
  | .float x => x.toInt?
  | .text s => Number.readInteger .unicode s.toList
  | .bytes bs => Number.readInteger .ascii (bs.map fun b => Char.ofNat b.toNat)
  | _ => none

namespace Pins

/-- Why a value is not taken as a number of pins. -/
inductive Rejection where
  | truthValue
  | notInteger
  /-- Negative, or more than the given most. -/
  | outOfRange (most : Int)
  deriving DecidableEq

/-- The wording of a rejection.  A most that is too long to be printed has none; see
`Number.IsPrintable`.  The program itself only ever checks against a full rack. -/
def Rejection.message : Rejection → String
  | .truthValue => "Pins must be an integer (not a boolean)."
  | .notInteger => "Pins must be an integer."
  | .outOfRange most => "Pins must be between 0 and " ++ Number.numeral most ++ "."

/-- The number of pins that a value stands for, from zero to `most`. -/
def check (most : Int) (v : Value) : Except Rejection Int :=
  match v with
  | .bool _ => .error .truthValue
  | _ =>
    match v.integer? with
    | none => .error .notInteger
    | some n => if 0 ≤ n ∧ n ≤ most then .ok n else .error (.outOfRange most)

theorem check_eq_ok_iff {most n : Int} {v : Value} :
    check most v = .ok n ↔ v.integer? = some n ∧ 0 ≤ n ∧ n ≤ most := by
  unfold check
  split
  · simp [Value.integer?]
  · split
    next h => simp [h]
    next m h =>
      split <;> simp_all <;> omega

/-- A number of pins stands for itself. -/
theorem check_int {most n : Int} (h0 : 0 ≤ n) (hn : n ≤ most) :
    check most (.int n) = .ok n :=
  check_eq_ok_iff.mpr ⟨rfl, h0, hn⟩

end Pins

end Pinfall
