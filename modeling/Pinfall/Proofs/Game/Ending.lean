import Mathlib.Data.Nat.Find
import Pinfall.Proofs.Game.Replay
import Pinfall.Proofs.Game.Ruling

/-!
# The end of a game

Every roll that is taken stays in a frame, and ten frames hold only so many rolls.  So
a game that goes on taking rolls comes to its end after no more than twenty-one of
them, and not before the eleventh.  It stays over from then on.
-/

namespace Pinfall.Game

open Scoring

variable {game : Game} {ended : List Frame} {current : Frame}

namespace StandsAt

theorem length_rollsOf_ended (h : game.StandsAt ended current) :
    ended.length ≤ (rollsOf ended).length ∧ (rollsOf ended).length ≤ ended.length * 2 := by
  constructor
  · apply length_le_length_rollsOf
    intro frame hframe
    exact (h.length_rolls_of_mem_ended hframe).1
  · apply length_rollsOf_le
    intro frame hframe
    exact (h.length_rolls_of_mem_ended hframe).2

theorem length_rollsOf_le_of_not_isOver (h : game.StandsAt ended current)
    (hover : game.isOver = false) : (rollsOf game.frames).length ≤ 20 := by
  rw [h.isOver_eq, ← h.current_isLegal.isOpen_iff] at hover
  have hbefore := h.length_rollsOf_ended.2
  have hnine := h.length_ended_le
  have hcurrent := hover.length_rolls_le
  rw [h.rollsOf_frames, List.length_append]
  omega

theorem length_rollsOf_of_isOver (h : game.StandsAt ended current) (hover : game.isOver = true) :
    11 ≤ (rollsOf game.frames).length ∧ (rollsOf game.frames).length ≤ 21 := by
  rw [h.isOver_eq, h.current_isLegal.isComplete_iff] at hover
  have hlast : current.isLast = true := by
    rcases h.current_open_or_last with hopen | ⟨hlast, -⟩
    · exact absurd hover hopen.not_isWhole
    · exact hlast
  have hnine := h.length_ended_eq hlast
  obtain ⟨hleast, hmost⟩ := h.length_rollsOf_ended
  obtain ⟨htwo, hthree⟩ := hover.length_rolls_last hlast
  rw [h.rollsOf_frames, List.length_append]
  constructor
  · omega
  · omega

end StandsAt

/-- The game is over when it has taken twenty-one rolls at the latest, and not before
the eleventh. -/
theorem IsUnderWay.length_rollsOf_bounds (h : game.IsUnderWay) :
    (rollsOf game.frames).length ≤ 21 ∧
      (game.isOver = true → 11 ≤ (rollsOf game.frames).length) ∧
      ((rollsOf game.frames).length = 21 → game.isOver = true) := by
  obtain ⟨ended, current, hstands⟩ := h
  by_cases hover : game.isOver = true
  · obtain ⟨hleast, hmost⟩ := hstands.length_rollsOf_of_isOver hover
    exact ⟨hmost, fun _ => hleast, fun _ => hover⟩
  · have hgoes : game.isOver = false := by simpa using hover
    have hmost := hstands.length_rollsOf_le_of_not_isOver hgoes
    refine ⟨by omega, fun hended => absurd hended hover, ?_⟩
    intro hfull
    omega

theorem length_taken (vs : List Value) :
    (new.taken vs).length = (rollsOf (new.afterRolls vs).frames).length := by
  have hlengths := congrArg List.length (map_check_taken vs)
  simpa using hlengths

/-! ## Rolling without end -/

/-- The game after the first so many values of a sequence have been rolled. -/
def afterFirst (game : Game) (values : Nat → Value) (count : Nat) : Game :=
  game.afterRolls ((List.range count).map values)

theorem afterFirst_succ_of_ok {next : Game} {events : List Event} {values : Nat → Value}
    {count : Nat} (h : (game.afterFirst values count).roll (values count) = .ok (next, events)) :
    game.afterFirst values (count + 1) = next := by
  rw [afterFirst, List.range_succ, List.map_append, afterRolls_append]
  exact afterRolls_cons_of_ok h []

theorem isUnderWay_afterFirst (values : Nat → Value) (count : Nat) :
    (new.afterFirst values count).IsUnderWay :=
  isUnderWay_afterRolls _

/-- As long as each value is taken, the frames hold as many rolls as there were values. -/
theorem length_rollsOf_afterFirst {values : Nat → Value} {count : Nat}
    (h : ∀ k < count, ∃ result, (new.afterFirst values k).roll (values k) = .ok result) :
    (rollsOf (new.afterFirst values count).frames).length = count := by
  induction count with
  | zero => rfl
  | succ count ih =>
    obtain ⟨⟨next, events⟩, hroll⟩ := h count (Nat.lt_succ_self count)
    have hbefore := ih fun k hk => h k (Nat.lt_succ_of_lt hk)
    obtain ⟨pins, -, hrolls⟩ := (isUnderWay_afterFirst values count).rollsOf_frames_of_roll hroll
    rw [afterFirst_succ_of_ok hroll, hrolls, List.length_append, hbefore]
    rfl

/-- A game that takes every value until it is over is over after eleven to twenty-one of
them. -/
theorem exists_isOver_afterFirst {values : Nat → Value}
    (h : ∀ k, (new.afterFirst values k).isOver = false →
      ∃ result, (new.afterFirst values k).roll (values k) = .ok result) :
    ∃ count, 11 ≤ count ∧ count ≤ 21 ∧ (new.afterFirst values count).isOver = true ∧
      ∀ k < count, (new.afterFirst values k).isOver = false := by
  have hlength (count : Nat) (hgoes : ∀ k < count, (new.afterFirst values k).isOver = false) :
      (rollsOf (new.afterFirst values count).frames).length = count :=
    length_rollsOf_afterFirst fun k hk => h k (hgoes k hk)
  have hends : ∃ count, (new.afterFirst values count).isOver = true := by
    by_contra hnever
    have hgoes (k : Nat) : (new.afterFirst values k).isOver = false := by
      simpa using not_exists.mp hnever k
    have hmost := (isUnderWay_afterFirst values 22).length_rollsOf_bounds.1
    rw [hlength 22 fun k _ => hgoes k] at hmost
    omega
  -- The first moment at which the game is over.
  have hgoes : ∀ k < Nat.find hends, (new.afterFirst values k).isOver = false := by
    intro k hk
    simpa using Nat.find_min hends hk
  have hover := Nat.find_spec hends
  obtain ⟨hmost, hleast, -⟩ := (isUnderWay_afterFirst values (Nat.find hends)).length_rollsOf_bounds
  rw [hlength _ hgoes] at hmost hleast
  exact ⟨Nat.find hends, hleast hover, hmost, hover, hgoes⟩

/-- Whatever values have been rolled, the outcome of the next roll is ruled by its value,
by the end of the game and by the pins standing in the frame at the cursor; a frame that
is complete already and a cursor without a frame are never met.  A game that is not over
takes up to one pin, and a game that is over never changes.  A game is over with the
eleventh roll that it takes at the earliest and with the twenty-first at the latest, so
that no sequence of values is taken without end. -/
theorem roll_ruling (vs : List Value) :
    let game := new.afterRolls vs
    (∃ i, position? game.frameCursor = some i ∧
        ∀ v, game.Ruling (game.frameAt i).remaining v (game.roll v)) ∧
      (∀ cause, (RollError.badPins cause).fault? = some (.invalidRoll (.text cause.message))) ∧
      RollError.gameOver.fault? = some .gameOver ∧
      RollError.tooManyPins.fault? =
        some (.invalidRoll (.text "Cannot knock down more pins than available")) ∧
      (∀ v, game.roll v ≠ .error .frameComplete ∧ game.roll v ≠ .error .noSuchFrame ∧
        game.roll v ≠ .error .oversizedIndex) ∧
      (game.isOver = false → ∀ v pins, Pins.check fullRack v = .ok pins → pins ≤ 1 →
        ∃ result, game.roll v = .ok result) ∧
      (game.isOver = true → ∀ more, game.afterRolls more = game) ∧
      ((new.taken vs).length ≤ 21 ∧ (game.isOver = true → 11 ≤ (new.taken vs).length) ∧
        ((new.taken vs).length = 21 → game.isOver = true)) ∧
      ∀ values : Nat → Value,
        (∀ k, (new.afterFirst values k).isOver = false →
          ∃ result, (new.afterFirst values k).roll (values k) = .ok result) →
        ∃ count, 11 ≤ count ∧ count ≤ 21 ∧ (new.afterFirst values count).isOver = true ∧
          ∀ k < count, (new.afterFirst values k).isOver = false := by
  intro game
  have hgame : game.IsUnderWay := isUnderWay_afterRolls vs
  obtain ⟨ended, current, hstands⟩ := isUnderWay_afterRolls vs
  obtain ⟨i, hi, hposition⟩ := hstands.exists_position?
  have hcurrent : game.frameAt i = current := hstands.frameAt_current hi
  have herror {v : Value} {error : RollError} (hroll : game.roll v = .error error) :
      (∃ cause, error = .badPins cause) ∨ error = .gameOver ∨ error = .tooManyPins := by
    have hruling := hstands.ruling v
    rw [hroll] at hruling
    exact hruling.error_cases
  refine ⟨⟨i, hposition, ?_⟩, fun _ => rfl, rfl, rfl, ?_, ?_, afterRolls_of_isOver, ?_, ?_⟩
  · intro v
    rw [hcurrent]
    exact hstands.ruling v
  · intro v
    refine ⟨?_, ?_, ?_⟩ <;> intro hroll <;> simpa using herror hroll
  · intro hover v pins hcheck hpins
    exact hgame.exists_roll_of_le_one hover hcheck hpins
  · rw [length_taken]
    exact hgame.length_rollsOf_bounds
  · intro values htaken
    exact exists_isOver_afterFirst htaken

/-- Gutter balls are taken until the game is over. -/
theorem isOver_afterFirst_gutterBalls :
    ∃ count, 11 ≤ count ∧ count ≤ 21 ∧
      (new.afterFirst (fun _ => .int 0) count).isOver = true := by
  obtain ⟨-, -, -, -, -, -, -, -, hends⟩ := roll_ruling []
  obtain ⟨count, hleast, hmost, hover, -⟩ := hends (fun _ => .int 0) fun k hgoes =>
    (isUnderWay_afterFirst _ k).exists_roll_of_le_one hgoes rfl (by decide)
  exact ⟨count, hleast, hmost, hover⟩

end Pinfall.Game
