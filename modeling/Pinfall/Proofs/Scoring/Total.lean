import Mathlib.Algebra.BigOperators.Fin
import Pinfall.Proofs.Scoring.Window

/-!
# The score as a sum over the frames

The score of a game is the sum of the scores of its ten frames, each by its position.
-/

namespace Pinfall

open Finset

theorem Number.total_eq_sum (ns : List Int) : Number.total ns = ns.sum := by
  induction ns with
  | nil => rfl
  | cons n ns ih => rw [Number.total_cons, List.sum_cons, ih]

namespace Game

variable {game : Game} {i : Fin 10}

theorem frames_eq_ofFn (game : Game) : game.frames = List.ofFn game.frameAt := by
  apply List.ext_getElem
  · rw [game.length_frames, List.length_ofFn]
  · intro k hk _
    rw [List.getElem_ofFn]
    rfl

theorem length_frameScores (game : Game) : game.frameScores.length = 10 := by
  rw [frameScores, Scoring.length_frameScores, game.length_frames]

/-- The score of the frame at a position. -/
def scoreAt (game : Game) (i : Fin 10) : Int :=
  game.frameScores.get (i.cast game.length_frameScores.symm)

theorem frameScores_eq_ofFn (game : Game) : game.frameScores = List.ofFn game.scoreAt := by
  apply List.ext_getElem
  · rw [game.length_frameScores, List.length_ofFn]
  · intro k hk _
    rw [List.getElem_ofFn]
    rfl

/-- A frame is scored in front of the frames behind its position. -/
theorem scoreAt_eq (game : Game) (i : Fin 10) :
    game.scoreAt i = Scoring.frameScore (game.frameAt i) (game.frames.drop (i + 1)) := by
  have hscores : game.frameScores[(i : Nat)]? = some (game.scoreAt i) := by
    rw [frameScores_eq_ofFn, List.getElem?_ofFn, dif_pos i.isLt]
  rw [frameScores, Scoring.getElem?_frameScores, getElem?_frames] at hscores
  exact (Option.some.inj hscores).symm

theorem score_eq_sum (game : Game) : game.score = ∑ i, game.scoreAt i := by
  rw [score, frameScores_eq_ofFn, Number.total_eq_sum, List.sum_ofFn]

end Game

end Pinfall
