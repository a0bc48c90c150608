import Pinfall.Proofs.Game.Ruling

/-!
# The log of a game

A game notes each frame that is complete before it goes on to the next one, and at last
its own end.  All of this can be read off the game as it stands: `chronicle` has a note for
each frame in front of the cursor, and one for the end if the game is over.  A roll that is
taken adds to the chronicle just what it notes, and a refused roll notes nothing.  So no
note is repeated or left out, and no later roll makes one untrue.
-/

namespace Pinfall.Game

variable {game next : Game} {ended : List Frame} {current : Frame} {v : Value}
  {events : List Event}

/-- The notes that frames are complete, the first of which is number one. -/
def completions (frames : List Frame) : List Event :=
  (frames.zipIdx 1).map fun (frame, number) => .frameComplete number frame

/-- What a game has noted, read off the game as it stands. -/
def chronicle (game : Game) : List Event :=
  completions (game.frames.take game.frameCursor.toNat) ++
    if game.isOver then [.gameOver game.score] else []

theorem completions_append_singleton (frames : List Frame) (frame : Frame) :
    completions (frames ++ [frame]) =
      completions frames ++ [.frameComplete (frames.length + 1) frame] := by
  simp [completions, List.zipIdx_append, Int.add_comm]

theorem chronicle_new : new.chronicle = [] := rfl

theorem StandsAt.chronicle_eq (h : game.StandsAt ended current) :
    game.chronicle =
      completions ended ++ if game.isOver then [.gameOver game.score] else [] := by
  have htake : game.frames.take game.frameCursor.toNat = ended := by
    rw [h.frames_eq, h.frameCursor_eq, Int.toNat_natCast, List.take_left']
    rfl
  rw [chronicle, htake]

/-- A roll that is taken adds to the chronicle what it notes. -/
theorem IsUnderWay.chronicle_of_roll (h : game.IsUnderWay)
    (hroll : game.roll v = .ok (next, events)) : next.chronicle = game.chronicle ++ events := by
  obtain ⟨ended, current, hstands⟩ := h
  have hgoes := isOver_eq_false_of_roll hroll
  have hbefore : game.chronicle = completions ended := by
    rw [hstands.chronicle_eq, hgoes, if_neg Bool.false_ne_true, List.append_nil]
  obtain ⟨pins, -, -, -, ⟨hnext, hevents⟩ | ⟨hnext, -, -, hevents⟩⟩ := hstands.of_roll hroll
  · rw [hnext.chronicle_eq, hbefore, hevents]
  · -- The frame that is under way now has no roll yet, so that the game goes on.
    have hnextGoes : next.isOver = false := by
      rw [hnext.isOver_eq]
      exact Frame.IsOpen.unplayed.isComplete_eq_false
    rw [hnext.chronicle_eq, hbefore, hevents, hnextGoes, if_neg Bool.false_ne_true,
      List.append_nil, completions_append_singleton]

theorem IsUnderWay.chronicle_afterRolls (h : game.IsUnderWay) (vs : List Value) :
    (game.afterRolls vs).chronicle = game.chronicle ++ game.eventsOf (vs.map Move.roll) := by
  induction vs generalizing game with
  | nil => simp [eventsOf]
  | cons v vs ih =>
    rw [List.map_cons, eventsOf]
    cases hroll : game.roll v with
    | error cause =>
      rw [afterRolls_cons_of_error hroll, ih h]
      simp [perform, hroll]
    | ok result =>
      rw [afterRolls_cons_of_ok hroll, ih (h.of_roll hroll), h.chronicle_of_roll hroll]
      simp [perform, hroll]

/-- Whatever values are rolled, the records of the whole run can be read off the game that
they lead to: one for each frame in front of the cursor, in order and with the marks that the
frame has in the end, and one with the final score if the game is over. -/
theorem records_of_rolls (vs : List Value) :
    let game := new.afterRolls vs
    (game.frameCursor.toNat : Int) = game.frameCursor ∧
      (new.eventsOf (vs.map Move.roll)).map Event.record =
        ((game.frames.take game.frameCursor.toNat).zipIdx 1).map (fun (frame, number) =>
          ⟨.debug, .game, "Frame " ++ Number.numeral number ++ " complete " ++ frame.display ++
            "; advancing"⟩) ++
        if game.isOver then
          [⟨.info, .game, "Game over with score " ++ Number.numeral game.score⟩]
        else [] := by
  intro game
  obtain ⟨ended, current, hstands⟩ := isUnderWay_afterRolls vs
  have hrun := isUnderWay_new.chronicle_afterRolls vs
  rw [chronicle_new, List.nil_append] at hrun
  constructor
  · apply Int.toNat_of_nonneg
    rw [hstands.frameCursor_eq]
    exact Int.natCast_nonneg _
  · rw [← hrun, chronicle, List.map_append, completions, List.map_map]
    congr 1
    exact apply_ite (List.map Event.record) _ _ _

end Pinfall.Game
