import Pinfall.Number.Total
import Pinfall.RollError

/-!
# Frames

A frame is the list of its rolls and whether it is the last one of a game.  An
ordinary frame ends with a strike or with its second roll; in the last frame the
rack is set up again whenever it is empty, and a strike or a spare is followed
by fill balls up to a third roll.
-/

namespace Pinfall

/-- The rolls recorded in one frame. -/
structure Frame where
  rolls : List Int := []
  isLast : Bool := false
  deriving DecidableEq

namespace Frame

/-- The pins standing in the last frame after one more roll; an empty rack is
set up again. -/
def standingAfter (standing pins : Int) : Int :=
  if standing - pins = 0 then fullRack else standing - pins

/-- The pins that the next roll can knock down. -/
def remaining (frame : Frame) : Int :=
  if frame.isLast then frame.rolls.foldl standingAfter fullRack
  else fullRack - Number.total frame.rolls

/-- The first roll took the full rack. -/
def isStrike (frame : Frame) : Bool :=
  frame.rolls.head? = some fullRack

/-- The first two rolls together took the full rack. -/
def isSpare (frame : Frame) : Bool :=
  match frame.rolls with
  | first :: second :: _ => first + second = fullRack && !frame.isStrike
  | _ => false

/-- The frame takes no more rolls. -/
def isComplete (frame : Frame) : Bool :=
  if frame.isLast then
    if frame.isStrike || frame.isSpare then 3 ≤ frame.rolls.length
    else 2 ≤ frame.rolls.length
  else
    frame.isStrike || 2 ≤ frame.rolls.length

/-- The pins knocked down in the frame, without any bonus. -/
def pinfall (frame : Frame) : Int :=
  Number.total frame.rolls

/-- Record a roll. -/
def addRoll (frame : Frame) (v : Value) : Except RollError Frame :=
  match Pins.check fullRack v with
  | .error cause => .error (.badPins cause)
  | .ok pins =>
    if frame.isComplete then .error .frameComplete
    else if frame.remaining < pins then .error .tooManyPins
    else .ok { frame with rolls := frame.rolls ++ [pins] }

/-- The frame after an attempted roll, and why the roll was refused if it was. -/
def attempt (frame : Frame) (v : Value) : Frame × Option RollError :=
  match frame.addRoll v with
  | .ok rolled => (rolled, none)
  | .error cause => (frame, some cause)

/-- A roll that is taken is added at the end, and the kind of frame stays. -/
theorem addRoll_eq_ok {frame frame' : Frame} {v : Value}
    (h : frame.addRoll v = .ok frame') :
    ∃ pins, Pins.check fullRack v = .ok pins ∧ frame.isComplete = false ∧
      pins ≤ frame.remaining ∧ frame' = { frame with rolls := frame.rolls ++ [pins] } := by
  unfold addRoll at h
  split at h
  · simp at h
  next pins hpins =>
    split at h
    · simp at h
    next hcomplete =>
      split at h
      · simp at h
      next hstanding =>
        refine ⟨pins, hpins, by simpa using hcomplete, by omega, ?_⟩
        simpa using h.symm

end Frame

end Pinfall
