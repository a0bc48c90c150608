import Mathlib.Algebra.Order.BigOperators.Group.Finset
import Mathlib.Algebra.Order.Ring.Int
import Pinfall.Proofs.Frame.Ceiling
import Pinfall.Proofs.Game.Legality
import Pinfall.Proofs.Scoring.Total

/-!
# The least and the greatest scores

No frame of a legal game scores less than nothing or more than thirty points, in
whatever order the frames were filled.  Thirty points are those of a strike before two
more strikes, and in the last frame those of three strikes, so that a game scores three
hundred only if it is perfect.
-/

namespace Pinfall

open Finset

namespace Scoring

variable {frame : Frame} {following : List Frame} {rolls : List Int}

theorem pinsAt_bounds (h : ∀ pins ∈ rolls, 0 ≤ pins ∧ pins ≤ 10) (k : Nat) :
    0 ≤ pinsAt rolls k ∧ pinsAt rolls k ≤ 10 := by
  unfold pinsAt
  cases hk : rolls[k]? with
  | none => decide
  | some pins => exact h pins (List.mem_of_getElem? hk)

theorem rollsOf_bounds (h : ∀ frame ∈ following, frame.IsLegal) :
    ∀ pins ∈ rollsOf following, 0 ≤ pins ∧ pins ≤ 10 := by
  intro pins hpins
  obtain ⟨frame, hframe, hroll⟩ := List.mem_flatMap.mp hpins
  exact (h frame hframe).roll_bounds pins hroll

/-- Only a strike is worth more than twenty points. -/
theorem frameScore_ordinary_bounds (h : frame.IsLegal) (hordinary : frame.isLast = false)
    (hfollowing : ∀ other ∈ following, other.IsLegal) :
    0 ≤ frameScore frame following ∧ frameScore frame following ≤ 30 ∧
      (20 < frameScore frame following → frame.rolls = [10]) := by
  have hbonus := pinsAt_bounds (rollsOf_bounds hfollowing)
  obtain ⟨hfirst, hfirst10⟩ := hbonus 0
  obtain ⟨hsecond, hsecond10⟩ := hbonus 1
  obtain ⟨rolls, isLast⟩ := frame
  obtain rfl : isLast = false := hordinary
  rcases h with hopen | hwhole
  · cases hopen with
    | unplayed =>
      rw [frameScore_of_rolls_eq_nil rfl]
      omega
    | oneRoll ha ha9 =>
      rw [frameScore_oneRoll ha9]
      omega
  · cases Frame.isWhole_ordinary.mp hwhole with
    | strike =>
      rw [frameScore_strike]
      refine ⟨by omega, by omega, fun _ => rfl⟩
    | @twoRolls a b ha ha9 hb hab =>
      by_cases hspare : a + b = 10
      · rw [frameScore_spare ha9 hspare]
        omega
      · rw [frameScore_twoRolls ha9 hspare]
        omega

/-- The last frame is worth thirty points only with three strikes. -/
theorem total_last_bounds (h : frame.IsLegal) (hlast : frame.isLast = true) :
    0 ≤ Number.total frame.rolls ∧ Number.total frame.rolls ≤ 30 ∧
      (Number.total frame.rolls = 30 → frame.rolls = [10, 10, 10]) := by
  obtain ⟨rolls, isLast⟩ := frame
  obtain rfl : isLast = true := hlast
  rcases h with hopen | hwhole
  · cases hopen with
    | unplayed | oneRoll | lastStrike | lastSpare | lastFillBall =>
      simp only [Number.total_cons, Number.total_nil]
      omega
  · cases Frame.isWhole_last.mp hwhole with
    | twoRolls | spare | strike =>
      simp only [Number.total_cons, Number.total_nil]
      omega
    | @twoStrikes c hc hc10 =>
      simp only [Number.total_cons, Number.total_nil, List.cons.injEq, true_and, and_true]
      omega

end Scoring

namespace Game

open Scoring

variable {game : Game} {i : Fin 10}

/-- The frames of a perfect game. -/
def perfectFrame (i : Fin 10) : Frame :=
  if (i : Nat) < 9 then ⟨[10], false⟩ else ⟨[10, 10, 10], true⟩

theorem isLast_perfectFrame : ∀ i, (perfectFrame i).isLast = decide (i = 9) := by decide

theorem IsLegal.scoreAt_bounds (h : game.IsLegal) (i : Fin 10) :
    0 ≤ game.scoreAt i ∧ game.scoreAt i ≤ 30 ∧
      (game.scoreAt i = 30 → game.frameAt i = perfectFrame i) := by
  have hkind := h.isLast_frameAt i
  have hframe := h.frameAt_isLegal i
  rw [scoreAt_eq]
  by_cases hi : i = 9
  · have hlast : (game.frameAt i).isLast = true := by simpa [hi] using hkind
    obtain ⟨hnonneg, hle, hstrikes⟩ := total_last_bounds hframe hlast
    rw [frameScore_of_isLast hlast, perfectFrame, if_neg (by omega)]
    refine ⟨hnonneg, hle, ?_⟩
    intro hscore
    rw [← hstrikes hscore, ← hlast]
  · have hordinary : (game.frameAt i).isLast = false := by simpa [hi] using hkind
    have hfollowing : ∀ other ∈ game.frames.drop (i + 1), other.IsLegal :=
      fun other hother => h.isLegal_of_mem (List.mem_of_mem_drop hother)
    obtain ⟨hnonneg, hle, hstrike⟩ := frameScore_ordinary_bounds hframe hordinary hfollowing
    rw [perfectFrame, if_pos (by omega)]
    refine ⟨hnonneg, hle, ?_⟩
    intro hscore
    rw [← hstrike (by omega), ← hordinary]

theorem IsLegal.bounds_of_mem_frameScores (h : game.IsLegal) {score : Int}
    (hscore : score ∈ game.frameScores) : 0 ≤ score ∧ score ≤ 30 := by
  rw [frameScores_eq_ofFn] at hscore
  obtain ⟨i, rfl⟩ := List.mem_ofFn.mp hscore
  obtain ⟨hnonneg, hle, -⟩ := h.scoreAt_bounds i
  exact ⟨hnonneg, hle⟩

theorem IsLegal.score_bounds (h : game.IsLegal) : 0 ≤ game.score ∧ game.score ≤ 300 := by
  rw [score_eq_sum]
  constructor
  · exact sum_nonneg fun i _ => (h.scoreAt_bounds i).1
  · have hle := sum_le_card_nsmul univ game.scoreAt 30 fun i _ => (h.scoreAt_bounds i).2.1
    simpa using hle

/-- A score of three hundred leaves no frame below thirty. -/
theorem IsLegal.frameAt_eq_perfectFrame (h : game.IsLegal) (hscore : game.score = 300)
    (i : Fin 10) : game.frameAt i = perfectFrame i := by
  have hle : ∀ i ∈ univ, game.scoreAt i ≤ 30 := fun i _ => (h.scoreAt_bounds i).2.1
  have hsum : ∑ i, game.scoreAt i = ∑ _ : Fin 10, 30 := by
    rw [← score_eq_sum, hscore]
    rfl
  have hthirty := (sum_eq_sum_iff_of_le hle).mp hsum i (mem_univ i)
  exact (h.scoreAt_bounds i).2.2 hthirty

theorem IsLegal.score_eq_iff (h : game.IsLegal) :
    game.score = 300 ↔
      game.frames.map Frame.rolls = List.replicate 9 [10] ++ [[10, 10, 10]] := by
  have hperfect : (List.ofFn perfectFrame).map Frame.rolls =
      List.replicate 9 [10] ++ [[10, 10, 10]] := by decide
  constructor
  · intro hscore
    have hframes : game.frameAt = perfectFrame :=
      funext fun i => h.frameAt_eq_perfectFrame hscore i
    rw [frames_eq_ofFn, hframes, hperfect]
  · intro hrolls
    have hframes : game.frameAt = perfectFrame := by
      funext i
      have hat := congrArg (·[(i : Nat)]?) (hrolls.trans hperfect.symm)
      simp only [List.getElem?_map, getElem?_frames, List.getElem?_ofFn, dif_pos i.isLt,
        Option.map_some, Option.some.injEq] at hat
      exact Frame.ext hat ((h.isLast_frameAt i).trans (isLast_perfectFrame i).symm)
    rw [score, frameScores, frames_eq_ofFn, hframes]
    decide

/-- However rolls are put into the frames of a game, in turn or out of turn, every frame
scores between nothing and thirty points and the game between nothing and three hundred,
and it scores three hundred just when it is perfect. -/
theorem score_bounds_after {moves : List Move}
    (hchecked : ∀ move ∈ moves, move.isChecked = true) :
    let game := new.after moves
    (∀ score ∈ game.frameScores, 0 ≤ score ∧ score ≤ 30) ∧
      (0 ≤ game.score ∧ game.score ≤ 300) ∧
      (game.score = 300 ↔
        game.frames.map Frame.rolls = List.replicate 9 [10] ++ [[10, 10, 10]]) := by
  intro game
  have hlegal : game.IsLegal := isLegal_after hchecked
  refine ⟨?_, hlegal.score_bounds, hlegal.score_eq_iff⟩
  intro score hscore
  exact hlegal.bounds_of_mem_frameScores hscore

/-- Strikes in every frame, from the last one back to the first. -/
def strikesBackwards : List Move :=
  List.replicate 3 (.addRollAt (-1) (.int 10)) ++
    (List.range 9).map fun k => .addRollAt (8 - k) (.int 10)

theorem isChecked_of_mem_strikesBackwards :
    ∀ move ∈ strikesBackwards, move.isChecked = true := by
  simp [strikesBackwards, Move.isChecked]

theorem score_after_strikesBackwards :
    (∀ move ∈ strikesBackwards, move.isChecked = true) ∧
      (new.after strikesBackwards).score = 300 := by
  obtain ⟨-, -, hperfect⟩ := score_bounds_after isChecked_of_mem_strikesBackwards
  exact ⟨isChecked_of_mem_strikesBackwards, hperfect.mpr (by decide)⟩

end Game

end Pinfall
