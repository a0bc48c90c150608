import Pinfall.Game.Basic
import Pinfall.Json.Basic
import Pinfall.Schema.Field

/-!
# Game summaries

A summary holds the rolls, the scores and the cursor of a game.  As a record it
has two namings for its fields of two words.
-/

namespace Pinfall

/-- What a game comes to at some moment. -/
structure Summary where
  frames : List (List Int)
  scores : List Int
  cumulative : List Int
  total : Int
  currentFrame : Int
  currentRoll : Int
  gameOver : Bool
  deriving DecidableEq

/-- The summary of a game. -/
def Game.summary (game : Game) : Summary where
  frames := game.frames.map Frame.rolls
  scores := game.frameScores
  cumulative := Scoring.runningTotals 0 game.frameScores
  total := game.score
  currentFrame := game.currentFrame
  currentRoll := game.currentRoll
  gameOver := game.isOver

namespace Summary

/-- How field names of two words are written. -/
inductive Naming where
  /-- As in `currentFrame`. -/
  | camelCase
  /-- As in `current_frame`. -/
  | snakeCase

/-- The record of a summary. -/
def toJson (naming : Naming) (summary : Summary) : Json :=
  let name (camel snake : String) : String :=
    match naming with
    | .camelCase => camel
    | .snakeCase => snake
  .object
    [("frames", .array (summary.frames.map Json.integers)),
      ("scores", Json.integers summary.scores),
      ("cumulative", Json.integers summary.cumulative),
      ("total", .integer summary.total),
      (name "currentFrame" "current_frame", .integer summary.currentFrame),
      (name "currentRoll" "current_roll", .integer summary.currentRoll),
      (name "gameOver" "game_over", .bool summary.gameOver)]

/-- Check a record of a summary.  A total is between 0 and 300, a frame between 1
and 10, and a roll at least 1; fields of two words go by either naming. -/
def check : Value → Schema.Checked Summary :=
  Schema.record "GameSummaryOut" fun fields =>
    Summary.mk <$> Schema.required "frames" [] (Schema.list (Schema.list Schema.integer)) fields
      <*> Schema.required "scores" [] (Schema.list Schema.integer) fields
      <*> Schema.required "cumulative" [] (Schema.list Schema.integer) fields
      <*> Schema.required "total" [] (Schema.boundedInteger 0 (some 300)) fields
      <*> Schema.required "currentFrame" ["current_frame"]
        (Schema.boundedInteger 1 (some 10)) fields
      <*> Schema.required "currentRoll" ["current_roll"] (Schema.boundedInteger 1 none) fields
      <*> Schema.required "gameOver" ["game_over"] Schema.truthValue fields

end Summary

end Pinfall
