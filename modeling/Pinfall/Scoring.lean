import Pinfall.Frame.Basic

/-!
# Scores of frames

A frame scores its own pins and, for a strike, the next two rolls, for a spare,
the next one, wherever they were bowled.  Rolls still missing count as zero.
The last frame has no bonus: its fill balls are among its own pins.
-/

namespace Pinfall.Scoring

/-- All rolls of a list of frames in order. -/
def rollsOf (frames : List Frame) : List Int :=
  frames.flatMap Frame.rolls

@[simp] theorem rollsOf_nil : rollsOf [] = [] := rfl

@[simp] theorem rollsOf_cons (frame : Frame) (frames : List Frame) :
    rollsOf (frame :: frames) = frame.rolls ++ rollsOf frames := rfl

@[simp] theorem rollsOf_append (frames others : List Frame) :
    rollsOf (frames ++ others) = rollsOf frames ++ rollsOf others := by
  simp [rollsOf]

theorem length_le_length_rollsOf {frames : List Frame}
    (h : ∀ frame ∈ frames, 1 ≤ frame.rolls.length) : frames.length ≤ (rollsOf frames).length := by
  induction frames with
  | nil => exact Nat.le_refl _
  | cons frame frames ih =>
    have hfirst := h frame List.mem_cons_self
    have hrest := ih fun other hother => h other (List.mem_cons_of_mem _ hother)
    simp only [rollsOf_cons, List.length_append, List.length_cons]
    omega

theorem length_rollsOf_le {frames : List Frame} {most : Nat}
    (h : ∀ frame ∈ frames, frame.rolls.length ≤ most) :
    (rollsOf frames).length ≤ frames.length * most := by
  induction frames with
  | nil => exact Nat.zero_le _
  | cons frame frames ih =>
    have hfirst := h frame List.mem_cons_self
    have hrest := ih fun other hother => h other (List.mem_cons_of_mem _ hother)
    simp only [rollsOf_cons, List.length_append, List.length_cons, Nat.succ_mul]
    omega

/-- How many of the following rolls count once more for a frame. -/
def bonusRolls (frame : Frame) : Nat :=
  if frame.isLast then 0
  else if frame.isStrike then 2
  else if frame.isSpare then 1
  else 0

/-- What a frame scores in front of the frames that follow it. -/
def frameScore (frame : Frame) (following : List Frame) : Int :=
  frame.pinfall + Number.total ((rollsOf following).take (bonusRolls frame))

/-- The scores of the frames of a list. -/
def frameScores : List Frame → List Int
  | [] => []
  | frame :: following => frameScore frame following :: frameScores following

@[simp] theorem length_frameScores (frames : List Frame) :
    (frameScores frames).length = frames.length := by
  induction frames with
  | nil => rfl
  | cons frame following ih => simp [frameScores, ih]

/-- The totals after each entry of a list, from a total before it. -/
def runningTotals (total : Int) : List Int → List Int
  | [] => []
  | score :: scores => (total + score) :: runningTotals (total + score) scores

end Pinfall.Scoring
