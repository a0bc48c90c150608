import Pinfall.Proofs.Frame.Ceiling
import Pinfall.Proofs.Game.Standing

/-!
# The order of play

Frames are played one after the other.  At every moment of a game the frames before
the cursor are complete, those after it are empty, and no rack has given more than
ten pins.  The game is over when all frames are complete; its own test for this and
the completion test of the last frame agree there.
-/

namespace Pinfall.Game

variable {game : Game} {ended : List Frame} {current : Frame} {i : Fin 10}

/-- What holds of a game at every moment of its play. -/
structure IsOrderly (game : Game) : Prop where
  length_frames : game.frames.length = 10
  isLast_iff : ∀ i : Fin 10, (game.frameAt i).isLast = true ↔ i = 9
  frameCursor_nonneg : 0 ≤ game.frameCursor
  frameCursor_le : game.frameCursor ≤ 9
  complete_before : ∀ i : Fin 10, (i : Nat) < game.frameCursor →
    (game.frameAt i).isComplete = true
  empty_after : ∀ i : Fin 10, game.frameCursor < (i : Nat) → (game.frameAt i).rolls = []
  incomplete_at : ∀ i : Fin 10, (i : Nat) = game.frameCursor → game.isOver = false →
    (game.frameAt i).isComplete = false
  rollCursor_eq : ∀ i : Fin 10, (i : Nat) = game.frameCursor →
    game.rollCursor = (game.frameAt i).rolls.length
  roll_bounds : ∀ i : Fin 10, ∀ pins ∈ (game.frameAt i).rolls, 0 ≤ pins ∧ pins ≤ 10
  ordinary_total_le : ∀ i : Fin 10, i ≠ 9 → Number.total (game.frameAt i).rolls ≤ 10
  ordinary_length_le : ∀ i : Fin 10, i ≠ 9 → (game.frameAt i).rolls.length ≤ 2
  last_rack_le : ∀ rack ∈ Frame.racks game.lastFrame.rolls, Number.total rack ≤ 10
  isOver_iff : game.isOver = true ↔ ∀ i : Fin 10, (game.frameAt i).isComplete = true
  isOver_eq_of_last : game.frameCursor = 9 → game.isOver = game.lastFrame.isComplete

namespace StandsAt

theorem isComplete_of_lt (h : game.StandsAt ended current) (hi : (i : Nat) < ended.length) :
    (game.frameAt i).isComplete = true :=
  (h.ended_whole _ (h.frameAt_mem_ended hi)).2.isComplete_eq_true

/-- The game is over when its frames are all complete. -/
theorem isOver_iff_forall_isComplete (h : game.StandsAt ended current) :
    game.isOver = true ↔ ∀ i : Fin 10, (game.frameAt i).isComplete = true := by
  rw [h.isOver_eq]
  constructor
  · intro hcomplete i
    rcases h.current_open_or_last with hopen | ⟨hlast, -⟩
    · rw [hopen.isComplete_eq_false] at hcomplete
      contradiction
    · have hnine := h.length_ended_eq hlast
      by_cases hi : (i : Nat) < ended.length
      · exact h.isComplete_of_lt hi
      · rw [h.frameAt_current (by omega)]
        exact hcomplete
  · intro hall
    obtain ⟨i, hi, -⟩ := h.exists_position?
    rw [← h.frameAt_current hi]
    exact hall i

theorem isOrderly (h : game.StandsAt ended current) : game.IsOrderly := by
  have hcursor := h.frameCursor_eq
  have hle := h.length_ended_le
  have hordinary (i : Fin 10) (hi : i ≠ 9) :
      Number.total (game.frameAt i).rolls ≤ 10 ∧ (game.frameAt i).rolls.length ≤ 2 := by
    have hkind : (game.frameAt i).isLast = false := by rw [h.isLast_frameAt, decide_eq_false hi]
    exact (h.frameAt_isLegal i).ordinary_bounds hkind
  exact
    { length_frames := game.length_frames
      isLast_iff := fun i => by rw [h.isLast_frameAt, decide_eq_true_eq]
      frameCursor_nonneg := by omega
      frameCursor_le := by omega
      complete_before := fun i hi => h.isComplete_of_lt (by omega)
      empty_after := fun i hi => h.rolls_frameAt_of_gt (by omega)
      incomplete_at := by
        intro i hi hover
        rw [h.frameAt_current (by omega), ← h.isOver_eq]
        exact hover
      rollCursor_eq := by
        intro i hi
        rw [h.frameAt_current (by omega)]
        exact h.rollCursor_eq
      roll_bounds := fun i => (h.frameAt_isLegal i).roll_bounds
      ordinary_total_le := fun i hi => (hordinary i hi).1
      ordinary_length_le := fun i hi => (hordinary i hi).2
      last_rack_le := (h.frameAt_isLegal 9).total_rack_le (by rw [h.isLast_frameAt]; rfl)
      isOver_iff := h.isOver_iff_forall_isComplete
      isOver_eq_of_last := by
        intro hnine
        have hlast : ((9 : Fin 10) : Nat) = ended.length := by
          change 9 = ended.length
          omega
        rw [h.isOver_eq, lastFrame, h.frameAt_current hlast] }

end StandsAt

/-- Whatever values are rolled, the game is in order at every moment, and its frame
cursor never goes back. -/
theorem isOrderly_afterRolls (vs : List Value) :
    (new.afterRolls vs).IsOrderly ∧
      ∀ more : List Value,
        (new.afterRolls vs).frameCursor ≤ (new.afterRolls (vs ++ more)).frameCursor := by
  constructor
  · obtain ⟨ended, current, hstands⟩ := isUnderWay_afterRolls vs
    exact hstands.isOrderly
  · intro more
    rw [afterRolls_append]
    exact frameCursor_le_afterRolls _ more

end Pinfall.Game
