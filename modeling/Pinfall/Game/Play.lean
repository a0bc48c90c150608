import Pinfall.Game.Basic

/-!
# Playing a list of rolls

A new game takes the rolls of a list one after the other, until one is refused.
-/

namespace Pinfall.Game

/-- What playing came to: the events on the way, and the game or the first
refusal. -/
structure Played where
  events : List Event
  result : Except RollError Game

/-- Play on with the rolls of a list.  Each is checked before the game sees it. -/
def playOn (game : Game) : List Value → Played
  | [] => ⟨[], .ok game⟩
  | v :: rest =>
    match Pins.check fullRack v with
    | .error cause => ⟨[], .error (.badPins cause)⟩
    | .ok pins =>
      match game.roll (.int pins) with
      | .error cause => ⟨[], .error cause⟩
      | .ok (next, events) =>
        let played := next.playOn rest
        ⟨events ++ played.events, played.result⟩

/-- Play a new game with the rolls of a list. -/
def play (rolls : List Value) : Played :=
  new.playOn rolls

end Pinfall.Game
