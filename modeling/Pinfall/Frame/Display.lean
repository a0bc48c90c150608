import Pinfall.Frame.Basic

/-!
# Score marks

A frame is shown by its marks: an X for the full rack in one roll, a slash for a
second roll that takes the rest of it, and otherwise the number of pins.
-/

namespace Pinfall.Frame

/-- The mark of a roll at the start of a rack. -/
def mark (pins : Int) : String :=
  if pins = fullRack then "X" else Number.numeral pins

/-- The mark of the second roll of a frame, after the given first one. -/
def secondMark (first pins : Int) : String :=
  if pins = fullRack then "X"
  else if first + pins = fullRack then "/"
  else Number.numeral pins

/-- The marks of the rolls of a frame. -/
def marks : List Int → List String
  | [] => []
  | [first] => [mark first]
  | first :: second :: rest => mark first :: secondMark first second :: rest.map mark

/-- The marks between brackets. -/
def display (frame : Frame) : String :=
  "[" ++ String.intercalate ", " (marks frame.rolls) ++ "]"

/-- The frame with all it holds spelled out. -/
def describe (frame : Frame) : String :=
  "Frame(rolls=[" ++ String.intercalate ", " (frame.rolls.map Number.numeral) ++
    "], is_last_frame=" ++ (if frame.isLast then "True" else "False") ++ ")"

end Pinfall.Frame
