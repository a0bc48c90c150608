import Pinfall.Problem
import Pinfall.RollError
import Pinfall.Value.Literal

/-!
# Faults

A fault is a refusal on the grounds of the program's rules.  It carries a title,
a code and a detail, which are not checked before a problem is made of them.
-/

namespace Pinfall

/-- The kinds of faults. -/
inductive FaultKind where
  | general
  | invalidRoll
  | gameOver
  | invalidArgument
  | userNotFound
  deriving DecidableEq

/-- A refusal on the grounds of the rules. -/
structure Fault where
  kind : FaultKind
  title : Value
  detail : Value
  code : Value

namespace Fault

/-- A fault of no special kind. -/
def general (title code detail : Value) : Fault :=
  ⟨.general, title, detail, code⟩

/-- A roll that is refused. -/
def invalidRoll (detail : Value) : Fault :=
  ⟨.invalidRoll, .text "Invalid roll", detail, .text "invalid_roll"⟩

/-- A roll after the end of the game. -/
def gameOver : Fault :=
  ⟨.gameOver, .text "Game over", .text RollError.gameOver.message, .text "game_over"⟩

/-- An argument that is refused. -/
def invalidArgument (detail : Value) : Fault :=
  ⟨.invalidArgument, .text "Invalid argument", detail, .text "invalid_argument"⟩

/-- An identifier that no user has, as it is shown. -/
def userNotFound (shown : String) : Fault :=
  ⟨.userNotFound, .text "User not found", .text ("user '" ++ shown ++ "' not found"),
    .text "user_not_found"⟩

/-- An identifier that no user has.  If it cannot be printed, there is no such fault. -/
def userNotFound? (id : Value) : Option Fault :=
  id.print?.map userNotFound

/-- What tells of a fault: its detail, or its title if there is no detail. -/
def wording (fault : Fault) : Value :=
  if fault.detail.isPresent then fault.detail else fault.title

/-- The wording of a fault as a text.  The faults of the program are worded by texts; where
the wording is another value, it must be one that can be printed. -/
def message (fault : Fault) : String :=
  fault.wording.display

/-- The problem to report for a fault. -/
def problem (fault : Fault) : Schema.Checked Problem :=
  Problem.check
    (.object [("title", fault.title), ("detail", fault.detail), ("code", fault.code)])

end Fault

/-- The fault that a refused roll is; an index without a frame is an error of
another kind. -/
def RollError.fault? : RollError → Option Fault
  | .noSuchFrame | .oversizedIndex => none
  | .gameOver => some .gameOver
  | error => some (.invalidRoll (.text error.message))

end Pinfall
