import Pinfall.Log
import Pinfall.Frame.Display
import Pinfall.Scoring

/-!
# Games

A game is ten frames, the last of them marked as such, and a cursor: the frame
and the roll that come next, counted from zero.  The cursor is an integer and
may be set to anything; a negative frame counts from the end, and beyond either
end there is no frame to roll in.  `position_eq_ok_iff` and
`position_eq_oversizedIndex_iff` say which indices have a frame and which are too
large to be one.
-/

namespace Pinfall

/-- A game of ten frames. -/
structure Game where
  frames : List Frame
  frameCursor : Int
  rollCursor : Int
  length_frames : frames.length = 10
  deriving DecidableEq

namespace Game

/-- A game before its first roll. -/
def new : Game where
  frames := List.replicate 9 {} ++ [{ isLast := true }]
  frameCursor := 0
  rollCursor := 0
  length_frames := rfl

instance : Inhabited Game := ⟨new⟩

/-- The position of a frame: from zero on counted from the front, below zero from
the end. -/
def position? (index : Int) : Option (Fin 10) :=
  if h : 0 ≤ index ∧ index < 10 then some ⟨index.toNat, by omega⟩
  else if h : -10 ≤ index ∧ index < 0 then some ⟨(index + 10).toNat, by omega⟩
  else none

/-- The frame at a position. -/
def frameAt (game : Game) (i : Fin 10) : Frame :=
  game.frames.get (i.cast game.length_frames.symm)

/-- The game with another frame at a position. -/
def setFrame (game : Game) (i : Fin 10) (frame : Frame) : Game :=
  { game with
    frames := game.frames.set i frame
    length_frames := by rw [List.length_set]; exact game.length_frames }

/-- The game with its cursor elsewhere. -/
def setCursor (game : Game) (frame roll : Int) : Game :=
  { game with frameCursor := frame, rollCursor := roll }

@[simp] theorem frames_setFrame (game : Game) (i : Fin 10) (frame : Frame) :
    (game.setFrame i frame).frames = game.frames.set i frame := rfl

@[simp] theorem frames_setCursor (game : Game) (frame roll : Int) :
    (game.setCursor frame roll).frames = game.frames := rfl

theorem frameAt_setFrame_self (game : Game) (i : Fin 10) (frame : Frame) :
    (game.setFrame i frame).frameAt i = frame :=
  List.getElem_set_self _

theorem frameAt_setFrame_of_ne (game : Game) {i j : Fin 10} (h : i ≠ j) (frame : Frame) :
    (game.setFrame i frame).frameAt j = game.frameAt j :=
  List.getElem_set_ne (fun hij => h (Fin.ext hij)) _

/-- Counted from the front, a position is the index itself. -/
theorem position?_natCast (i : Fin 10) : position? (i : Nat) = some i := by
  have hi := i.isLt
  have hin : (0 : Int) ≤ (i : Nat) ∧ ((i : Nat) : Int) < 10 := by omega
  simp [position?, hin]

/-- Ten indices counted from the front and ten from the end have a frame. -/
theorem position?_eq_none_iff {index : Int} :
    position? index = none ↔ index < -10 ∨ 10 ≤ index := by
  unfold position?
  split
  next h => simp; omega
  next h =>
    split
    next h' => simp; omega
    next h' => simp; omega

/-- The position of a frame, or why there is none. -/
def position (index : Int) : Except RollError (Fin 10) :=
  match position? index with
  | some i => .ok i
  | none => .error (if Number.FitsWord index then .noSuchFrame else .oversizedIndex)

theorem position_eq_ok_iff {index : Int} {i : Fin 10} :
    position index = .ok i ↔ position? index = some i := by
  unfold position
  split <;> simp_all

/-- Only an index that does not fit a word is refused for its size. -/
theorem position_eq_oversizedIndex_iff {index : Int} :
    position index = .error .oversizedIndex ↔ ¬ Number.FitsWord index := by
  unfold position
  split
  next i h =>
    have hin : -10 ≤ index ∧ index < 10 := by
      have hne : position? index ≠ none := by simp [h]
      rw [ne_eq, position?_eq_none_iff] at hne
      omega
    have hfits : Number.FitsWord index := by
      unfold Number.FitsWord Number.wordBound
      omega
    simp [hfits]
  next h => by_cases hfits : Number.FitsWord index <;> simp [hfits]

/-- The last frame. -/
def lastFrame (game : Game) : Frame :=
  game.frameAt 9

/-- The cursor has come to the last frame, and that has all its rolls. -/
def isOver (game : Game) : Bool :=
  if game.frameCursor < 9 then false
  else if game.lastFrame.isStrike || game.lastFrame.isSpare then
    3 ≤ game.lastFrame.rolls.length
  else
    2 ≤ game.lastFrame.rolls.length

/-- The number of the frame at the cursor, counted from one. -/
def currentFrame (game : Game) : Int :=
  game.frameCursor + 1

/-- The number of the roll at the cursor, counted from one. -/
def currentRoll (game : Game) : Int :=
  game.rollCursor + 1

/-- The scores of the ten frames. -/
def frameScores (game : Game) : List Int :=
  Scoring.frameScores game.frames

/-- The score of the game so far. -/
def score (game : Game) : Int :=
  Number.total game.frameScores

/-- What happens in a game besides the recording of rolls. -/
inductive Event where
  /-- The frame of the given number is complete, and another one follows. -/
  | frameComplete (number : Int) (frame : Frame)
  | gameOver (score : Int)
  deriving DecidableEq

/-- The log record of an event. -/
def Event.record : Event → Log.Record
  | .frameComplete number frame =>
    ⟨.debug, .game, "Frame " ++ Number.numeral number ++ " complete " ++ frame.display ++
      "; advancing"⟩
  | .gameOver score => ⟨.info, .game, "Game over with score " ++ Number.numeral score⟩

/-- Record a roll in the frame at the cursor, and move the cursor on. -/
def roll (game : Game) (v : Value) : Except RollError (Game × List Event) :=
  match Pins.check fullRack v with
  | .error cause => .error (.badPins cause)
  | .ok pins =>
    if game.isOver then .error .gameOver
    else
      match position game.frameCursor with
      | .error cause => .error cause
      | .ok i =>
        match (game.frameAt i).addRoll (.int pins) with
        | .error cause => .error cause
        | .ok frame =>
          let rolled :=
            (game.setFrame i frame).setCursor game.frameCursor (game.rollCursor + 1)
          if frame.isComplete && game.frameCursor < 9 then
            .ok (rolled.setCursor (game.frameCursor + 1) 0,
              [.frameComplete game.currentFrame frame])
          else if rolled.isOver then
            .ok (rolled, [.gameOver rolled.score])
          else
            .ok (rolled, [])

/-- Record a roll in the frame of the given index, wherever the cursor is. -/
def addRollAt (game : Game) (index : Int) (v : Value) : Except RollError Game :=
  match position index with
  | .error cause => .error cause
  | .ok i =>
    match (game.frameAt i).addRoll v with
    | .error cause => .error cause
    | .ok frame => .ok (game.setFrame i frame)

/-- Put other rolls into the frame of the given index, or change its kind,
without any check. -/
def assign (game : Game) (index : Int) (rolls : Option (List Int)) (isLast : Option Bool) :
    Except RollError Game :=
  match position index with
  | .error cause => .error cause
  | .ok i =>
    let frame := game.frameAt i
    .ok (game.setFrame i
      { rolls := rolls.getD frame.rolls, isLast := isLast.getD frame.isLast })

/-- All frames of a game with their numbers. -/
def display (game : Game) : String :=
  String.intercalate " | "
    (game.frames.zipIdx.map fun (frame, i) =>
      "Frame " ++ Number.numeral (i + 1) ++ ": " ++ frame.display)

end Game

end Pinfall
