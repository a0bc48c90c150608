import Pinfall.Game.Summary
import Pinfall.Proofs.Game.Standing

/-!
# Replaying a game

The frames of a game record the rolls that were taken, each once and in their order,
and nothing else: refused rolls leave no trace.  So the recorded rolls alone lead a
new game to the same place, and a summary can be played again.
-/

namespace Pinfall.Game

open Scoring

/-- Those of a list of values that a game takes when they are rolled in turn. -/
def taken (game : Game) : List Value → List Value
  | [] => []
  | v :: rest =>
    match game.roll v with
    | .error _ => game.taken rest
    | .ok (next, _) => v :: next.taken rest

theorem taken_cons_of_ok {game next : Game} {v : Value} {events : List Event}
    (h : game.roll v = .ok (next, events)) (vs : List Value) :
    game.taken (v :: vs) = v :: next.taken vs := by
  simp [taken, h]

theorem taken_cons_of_error {game : Game} {v : Value} {cause : RollError}
    (h : game.roll v = .error cause) (vs : List Value) :
    game.taken (v :: vs) = game.taken vs := by
  simp [taken, h]

/-- Without the refused rolls the game comes to the same, and nothing is refused. -/
theorem rollEach_taken (game : Game) (vs : List Value) :
    game.rollEach (game.taken vs) = .ok (game.afterRolls vs) := by
  induction vs generalizing game with
  | nil => rfl
  | cons v vs ih =>
    cases h : game.roll v with
    | error cause =>
      rw [taken_cons_of_error h, afterRolls_cons_of_error h]
      exact ih game
    | ok result =>
      rw [taken_cons_of_ok h, afterRolls_cons_of_ok h, rollEach_cons_of_ok h]
      exact ih result.1

theorem taken_of_rollEach {game next : Game} {vs : List Value}
    (h : game.rollEach vs = .ok next) : game.taken vs = vs := by
  induction vs generalizing game with
  | nil => rfl
  | cons v vs ih =>
    cases hv : game.roll v with
    | error cause =>
      rw [rollEach_cons_of_error hv] at h
      contradiction
    | ok result =>
      rw [rollEach_cons_of_ok hv] at h
      rw [taken_cons_of_ok hv, ih h]

/-- The rolls that come to be recorded are those that are taken. -/
theorem IsUnderWay.exists_recorded {game : Game} (h : game.IsUnderWay) (vs : List Value) :
    ∃ pins, (game.taken vs).map (Pins.check fullRack) = pins.map .ok ∧
      rollsOf (game.afterRolls vs).frames = rollsOf game.frames ++ pins := by
  induction vs generalizing game with
  | nil => exact ⟨[], rfl, by simp⟩
  | cons v vs ih =>
    cases hroll : game.roll v with
    | error cause =>
      rw [taken_cons_of_error hroll, afterRolls_cons_of_error hroll]
      exact ih h
    | ok result =>
      obtain ⟨first, hfirst, hrolls⟩ := h.rollsOf_frames_of_roll hroll
      obtain ⟨pins, hpins, hrest⟩ := ih (h.of_roll hroll)
      refine ⟨first :: pins, ?_, ?_⟩
      · rw [taken_cons_of_ok hroll, List.map_cons, List.map_cons, hfirst, hpins]
      · rw [afterRolls_cons_of_ok hroll, hrest, hrolls, List.append_assoc]
        rfl

theorem map_check_taken (vs : List Value) :
    (new.taken vs).map (Pins.check fullRack) = (rollsOf (new.afterRolls vs).frames).map .ok := by
  obtain ⟨pins, hpins, hrolls⟩ := isUnderWay_new.exists_recorded vs
  rw [hpins, hrolls]
  rfl

/-- The recorded rolls are taken as they are. -/
theorem map_check_rollsOf (vs : List Value) :
    ((rollsOf (new.afterRolls vs).frames).map Value.int).map (Pins.check fullRack) =
      (new.taken vs).map (Pins.check fullRack) := by
  rw [map_check_taken, List.map_map]
  apply List.map_congr_left
  intro pins hpins
  have hok : Except.ok pins ∈ (new.taken vs).map (Pins.check fullRack) := by
    rw [map_check_taken]
    exact List.mem_map_of_mem hpins
  obtain ⟨v, -, hv⟩ := List.mem_map.mp hok
  exact Pins.check_int_of_check hv

/-- The recorded rolls lead a new game to the same place, without a refusal. -/
theorem rollEach_rollsOf (vs : List Value) :
    new.rollEach ((rollsOf (new.afterRolls vs).frames).map Value.int) =
      .ok (new.afterRolls vs) := by
  rw [rollEach_congr (map_check_rollsOf vs), rollEach_taken]

/-- No roll is lost, repeated, moved or changed: the rolls in the frames are what the
taken values stand for, a new game that is given just these comes to be the same
game, and playing the frames of its summary gives the same summary. -/
theorem afterRolls_replay (vs : List Value) :
    let game := new.afterRolls vs
    (new.taken vs).map (Pins.check fullRack) = (rollsOf game.frames).map .ok ∧
      new.afterRolls ((rollsOf game.frames).map Value.int) = game ∧
      ∃ replayed, (play (game.summary.frames.flatten.map Value.int)).result = .ok replayed ∧
        replayed.summary = game.summary := by
  intro game
  have hrolls : game.summary.frames.flatten = rollsOf game.frames := rfl
  refine ⟨map_check_taken vs, afterRolls_of_rollEach (rollEach_rollsOf vs), game, ?_, rfl⟩
  rw [hrolls, play, result_playOn]
  exact rollEach_rollsOf vs

end Pinfall.Game
