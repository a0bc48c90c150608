import Pinfall.Proofs.Schema.Acceptance
import Pinfall.Proofs.Scoring.Bounds

/-!
# The summary of a legal game

The cumulative scores of a summary are the totals of the first scores, of the first two,
and so on up to the score of the game.  As no score is negative they never fall.  The
summary of a legal game keeps within the ranges of its own check.
-/

namespace Pinfall

namespace Scoring

variable {scores : List Int}

@[simp] theorem length_runningTotals (total : Int) (scores : List Int) :
    (runningTotals total scores).length = scores.length := by
  induction scores generalizing total with
  | nil => rfl
  | cons score scores ih => simp [runningTotals, ih]

/-- Each running total is the total of all scores so far. -/
theorem getElem?_runningTotals {k : Nat} (total : Int) (hk : k < scores.length) :
    (runningTotals total scores)[k]? = some (total + Number.total (scores.take (k + 1))) := by
  induction scores generalizing total k with
  | nil => simp at hk
  | cons score scores ih =>
    cases k with
    | zero => simp [runningTotals]
    | succ k =>
      rw [runningTotals, List.getElem?_cons_succ, ih (total + score) (by simpa using hk),
        List.take_succ_cons, Number.total_cons, Int.add_assoc]

theorem le_of_mem_runningTotals (h : ∀ score ∈ scores, 0 ≤ score) {total later : Int}
    (hlater : later ∈ runningTotals total scores) : total ≤ later := by
  induction scores generalizing total with
  | nil => contradiction
  | cons score scores ih =>
    have hscore := h score List.mem_cons_self
    rcases List.mem_cons.mp hlater with rfl | hrest
    · omega
    · have hle := ih (fun other hother => h other (List.mem_cons_of_mem _ hother)) hrest
      omega

/-- Without negative scores the running totals never fall. -/
theorem pairwise_runningTotals (h : ∀ score ∈ scores, 0 ≤ score) (total : Int) :
    (runningTotals total scores).Pairwise (· ≤ ·) := by
  induction scores generalizing total with
  | nil => exact List.Pairwise.nil
  | cons score scores ih =>
    have hrest : ∀ other ∈ scores, 0 ≤ other :=
      fun other hother => h other (List.mem_cons_of_mem _ hother)
    apply List.Pairwise.cons
    · intro later hlater
      exact le_of_mem_runningTotals hrest hlater
    · exact ih hrest (total + score)

end Scoring

namespace Game

open Scoring

variable {game : Game}

theorem length_cumulative (game : Game) : game.summary.cumulative.length = 10 := by
  rw [← game.length_frameScores]
  exact length_runningTotals 0 game.frameScores

theorem getElem?_cumulative (game : Game) {k : Nat} (hk : k < 10) :
    game.summary.cumulative[k]? = some (Number.total (game.summary.scores.take (k + 1))) := by
  have hlength : k < game.frameScores.length := by
    rw [game.length_frameScores]
    exact hk
  have htotal := getElem?_runningTotals 0 hlength
  rw [Int.zero_add] at htotal
  exact htotal

/-- The last of the cumulative scores is the score of the game. -/
theorem getLast?_cumulative (game : Game) :
    game.summary.cumulative.getLast? = some game.score := by
  have hall : game.summary.scores.take 10 = game.frameScores :=
    List.take_of_length_le (Nat.le_of_eq game.length_frameScores)
  rw [List.getLast?_eq_getElem?, game.length_cumulative, game.getElem?_cumulative (by decide), hall]
  rfl

theorem IsLegal.pairwise_cumulative (h : game.IsLegal) :
    game.summary.cumulative.Pairwise (· ≤ ·) := by
  apply pairwise_runningTotals
  intro score hscore
  exact (h.bounds_of_mem_frameScores hscore).1

/-- The summary of a legal game passes its own check unchanged. -/
theorem IsLegal.check_summary (h : game.IsLegal) (naming : Summary.Naming) :
    Summary.check (.ofJson (game.summary.toJson naming)) = .accepted game.summary := by
  obtain ⟨hnonneg, hle⟩ := h.score_bounds
  have hframe : 1 ≤ game.summary.currentFrame := by
    have hcursor := h.frameCursor_nonneg
    change 1 ≤ game.frameCursor + 1
    omega
  have hframe10 : game.summary.currentFrame ≤ 10 := by
    have hcursor := h.frameCursor_le
    change game.frameCursor + 1 ≤ 10
    omega
  have hroll : 1 ≤ game.summary.currentRoll := by
    have hcursor := h.rollCursor_nonneg
    change 1 ≤ game.rollCursor + 1
    omega
  exact Summary.check_toJson hnonneg hle hframe hframe10 hroll naming

end Game

end Pinfall
