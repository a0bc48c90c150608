import Pinfall.Fault
import Pinfall.Game.Summary
import Pinfall.Json.Printer

/-!
# Reports

A game is reported as text, its frames and its score, or as its summary in JSON.
A fault is reported as a line of text or as its problem in JSON.
-/

namespace Pinfall.CommandLine

/-- Whether a game is over, or else where it stands. -/
def statusText (game : Game) : String :=
  if game.isOver then "final"
  else
    "frame " ++ Number.numeral game.currentFrame ++ ", roll " ++
      Number.numeral game.currentRoll

/-- The report of a game as text. -/
def gameText (game : Game) : String :=
  game.display ++ "\nScore: " ++ Number.numeral game.score ++ " (" ++ statusText game ++ ")\n"

/-- The report of a game in JSON, once its summary has passed its checks. -/
def gameJson (game : Game) : Schema.Checked String :=
  (fun summary => (summary.toJson .camelCase).indented ++ "\n") <$>
    Summary.check (.ofJson (game.summary.toJson .camelCase))

/-- The report of a fault as text. -/
def faultText (fault : Fault) : String :=
  "error: " ++ fault.message ++ "\n"

/-- The report of a fault in JSON. -/
def faultJson (fault : Fault) : Schema.Checked String :=
  (fun problem => problem.toJson.compact ++ "\n") <$> fault.problem

end Pinfall.CommandLine
