import Pinfall.Game.Basic

/-!
# Moves

A move is anything that can be done to a game: a roll, a roll into a frame out of
turn, and the two changes that are made without any check.  A refused move leaves
the game as it was, so that a run of moves goes on after a refusal.
-/

namespace Pinfall.Game

/-- What can be done to a game. -/
inductive Move where
  | roll (v : Value)
  /-- A roll into the frame of the given index, wherever the cursor is. -/
  | addRollAt (index : Int) (v : Value)
  | setCursor (frame roll : Int)
  | assign (index : Int) (rolls : Option (List Int)) (isLast : Option Bool)

/-- The moves that check what they are given. -/
def Move.isChecked : Move → Bool
  | .roll _ | .addRollAt _ _ => true
  | _ => false

/-- What a move came to. -/
structure Moved where
  game : Game
  refusal : Option RollError := none
  events : List Event := []

/-- What a change came to that is refused or happens in silence. -/
def silently (game : Game) : Except RollError Game → Moved
  | .ok next => { game := next }
  | .error cause => { game := game, refusal := some cause }

/-- Do a move. -/
def perform (game : Game) : Move → Moved
  | .roll v =>
    match game.roll v with
    | .ok (next, events) => { game := next, events := events }
    | .error cause => { game := game, refusal := some cause }
  | .addRollAt index v => game.silently (game.addRollAt index v)
  | .setCursor frame roll => { game := game.setCursor frame roll }
  | .assign index rolls isLast => game.silently (game.assign index rolls isLast)

/-- The game after a run of moves. -/
def after (game : Game) (moves : List Move) : Game :=
  moves.foldl (fun game move => (game.perform move).game) game

/-- The events of a run of moves. -/
def eventsOf (game : Game) : List Move → List Event
  | [] => []
  | move :: moves => (game.perform move).events ++ (game.perform move).game.eventsOf moves

@[simp] theorem after_nil (game : Game) : game.after [] = game := rfl

@[simp] theorem after_cons (game : Game) (move : Move) (moves : List Move) :
    game.after (move :: moves) = (game.perform move).game.after moves := rfl

@[simp] theorem after_append (game : Game) (moves others : List Move) :
    game.after (moves ++ others) = (game.after moves).after others := by
  simp [after]

end Pinfall.Game
