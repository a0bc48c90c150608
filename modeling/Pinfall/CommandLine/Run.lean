import Pinfall.CommandLine.Report
import Pinfall.CommandLine.Usage
import Pinfall.Game.Play
import Pinfall.Reporting.Start

/-!
# Running the program

The program reads its arguments, starts error reporting, plays the rolls and
reports the game or the first refusal.  All it writes is part of the outcome.
Log records are kept apart from other text on standard error, so that the
threshold of the log has no say in what happens.
-/

namespace Pinfall.CommandLine

/-- A part of what is written on standard error. -/
inductive Emission where
  | record (r : Log.Record)
  | text (s : String)
  deriving DecidableEq

/-- What is written for a part under a threshold of the log. -/
def Emission.shown (threshold : Log.Level) : Emission → String
  | .record r => if r.isShown threshold then r.line else ""
  | .text s => s

/-- How a run ends. -/
structure Outcome where
  exitCode : Nat
  out : String := ""
  err : List Emission := []
  /-- The calls of the reporting service. -/
  calls : List Reporting.Call := []
  deriving DecidableEq

/-- The text on standard error under a threshold of the log. -/
def Outcome.errText (threshold : Log.Level) (outcome : Outcome) : String :=
  String.join (outcome.err.map (Emission.shown threshold))

/-- What would end a run without an outcome. -/
inductive Failure where
  | noFrame (error : RollError)
  | badSummary (complaints : List Schema.Complaint)
  | badProblem (complaints : List Schema.Complaint)

/-- The outcome of arguments that stop the program. -/
def Stop.outcome : Stop → Outcome
  | .help => { exitCode := 0, out := helpText }
  | .usage error => { exitCode := 2, err := [.text error.text] }

/-- The report of a game in the form that was asked for. -/
def report (json : Bool) (game : Game) : Except Failure String :=
  if json then
    match gameJson game with
    | .accepted text => .ok text
    | .refused complaints => .error (.badSummary complaints)
  else
    .ok (gameText game)

/-- The report of a refusal in the form that was asked for: a warning and the
error itself. -/
def rejection (json : Bool) (fault : Fault) : Except Failure (List Emission) :=
  let warning : Log.Record := ⟨.warning, .commandLine, "Rejected input: " ++ fault.message⟩
  if json then
    match faultJson fault with
    | .accepted text => .ok [.record warning, .text text]
    | .refused complaints => .error (.badProblem complaints)
  else
    .ok [.record warning, .text (faultText fault)]

/-- Play what is asked for, after the given log. -/
def Request.outcome (request : Request) (started : Reporting.Started) :
    Except Failure Outcome :=
  let played := Game.play (request.rolls.map .text)
  let log := (started.log ++ played.events.map Game.Event.record).map Emission.record
  match played.result with
  | .ok game =>
    match report request.json game with
    | .ok text => .ok { exitCode := 0, out := text, err := log, calls := started.calls }
    | .error failure => .error failure
  | .error error =>
    match error.fault? with
    | none => .error (.noFrame error)
    | some fault =>
      match rejection request.json fault with
      | .ok emissions =>
        .ok { exitCode := 1, err := log ++ emissions, calls := started.calls }
      | .error failure => .error failure

/-- Run the program. -/
def run (arguments : List String) (vars : Reporting.Variables) :
    Except Failure Outcome :=
  match parse arguments with
  | .error stop => .ok stop.outcome
  | .ok request => request.outcome (Reporting.start none vars)

end Pinfall.CommandLine
