import Pinfall.Pins

/-!
# Refused rolls

The causes for which a roll is not recorded, and their wording.
-/

namespace Pinfall

/-- Why a roll is refused. -/
inductive RollError where
  /-- The value is no number of pins. -/
  | badPins (cause : Pins.Rejection)
  | frameComplete
  /-- Fewer pins stand than are said to have fallen. -/
  | tooManyPins
  | gameOver
  /-- The index of the frame is beyond both ends of the game. -/
  | noSuchFrame
  /-- The index of the frame does not even fit a 64-bit word. -/
  | oversizedIndex
  deriving DecidableEq

/-- The wording of a refusal. -/
def RollError.message : RollError → String
  | .badPins cause => cause.message
  | .frameComplete => "frame is already complete"
  | .tooManyPins => "Cannot knock down more pins than available"
  | .gameOver => "cannot roll after game is over"
  | .noSuchFrame => "list index out of range"
  | .oversizedIndex => "cannot fit 'int' into an index-sized integer"

end Pinfall
