import Pinfall.Proofs.CommandLine.Ending

/-!
# The program step by step

The program can also be run step by step on a console.  Texts are written as they come up,
and each log record is held against the threshold at once, in the midst of the run: a line
is written or not before anything else happens.  Such a run writes what the outcome of the
program says, so that it does not matter that an outcome keeps the records that are not
shown.
-/

namespace Pinfall.CommandLine

/-- What has been written so far, and the calls of the reporting service. -/
structure Console where
  out : String := ""
  err : String := ""
  calls : List Reporting.Call := []

/-- What ends a run before its last step. -/
inductive Break where
  | exit (code : Nat)
  | failure (cause : Failure)

/-- Steps on a console under a threshold of the log.  They may break off. -/
abbrev OnConsole (α : Type) := ExceptT Break (ReaderT Log.Level (StateM Console)) α

namespace OnConsole

variable {α β : Type}

/-- What the steps come to, and the console as they leave it. -/
def exec (steps : OnConsole α) (threshold : Log.Level) (console : Console) :
    Except Break α × Console :=
  ((ExceptT.run steps).run threshold).run console

def print (text : String) : OnConsole Unit :=
  modify fun console => { console with out := console.out ++ text }

def printErr (text : String) : OnConsole Unit :=
  modify fun console => { console with err := console.err ++ text }

def call (c : Reporting.Call) : OnConsole Unit :=
  modify fun console => { console with calls := console.calls ++ [c] }

/-- The line of a record is written if the threshold lets it through. -/
def log (record : Log.Record) : OnConsole Unit := do
  if record.isShown (← read) then printErr record.line

def emit : Emission → OnConsole Unit
  | .record r => log r
  | .text s => printErr s

/-- Go on with a result, or break off. -/
def orFail : Except Failure α → OnConsole α
  | .ok a => pure a
  | .error cause => throw (.failure cause)

/-- What the arguments ask for.  Anything but rolls ends the run here. -/
def readArguments (arguments : List String) : OnConsole Request :=
  match parse arguments with
  | .ok request => pure request
  | .error .help => do
    print helpText
    throw (.exit 0)
  | .error (.usage error) => do
    printErr error.text
    throw (.exit 2)

/-- Error reporting is started, with a warning first if the sample rate is no rate. -/
def startReporting (vars : Reporting.Variables) : OnConsole Unit := do
  let (settings, warnings) := vars.settings
  forM warnings log
  let started := Reporting.startWith settings
  forM started.calls call
  forM started.log log

/-- Play on with the rolls of a list, noting events as they happen. -/
def play (game : Game) : List Value → OnConsole (Except RollError Game)
  | [] => return .ok game
  | v :: rest =>
    match Pins.check fullRack v with
    | .error cause => return .error (.badPins cause)
    | .ok pins =>
      match game.roll (.int pins) with
      | .error cause => return .error cause
      | .ok (next, events) => do
        forM (events.map Game.Event.record) log
        play next rest

/-- What is asked for is played and reported; what it comes to is the exit code. -/
def serve (request : Request) (vars : Reporting.Variables) : OnConsole Nat := do
  startReporting vars
  match ← play .new (request.rolls.map .text) with
  | .ok game =>
    print (← orFail (report request.json game))
    return 0
  | .error error =>
    match error.fault? with
    | none => throw (.failure (.noFrame error))
    | some fault =>
      forM (← orFail (rejection request.json fault)) emit
      return 1

/-- The whole program; what it comes to is its exit code. -/
def program (arguments : List String) (vars : Reporting.Variables) : OnConsole Nat := do
  serve (← readArguments arguments) vars

end OnConsole

/-- What a run has shown when it has ended. -/
structure Transcript where
  exitCode : Nat
  console : Console

/-- The transcript of a run under a threshold of the log. -/
def transcript (threshold : Log.Level) (arguments : List String) (vars : Reporting.Variables) :
    Except Failure Transcript :=
  match (OnConsole.program arguments vars).exec threshold {} with
  | (.ok code, console) => .ok ⟨code, console⟩
  | (.error (.exit code), console) => .ok ⟨code, console⟩
  | (.error (.failure cause), _) => .error cause

theorem logText_append (threshold : Log.Level) (records others : List Log.Record) :
    logText threshold (records ++ others) =
      logText threshold records ++ logText threshold others := by
  simp [logText, String.join_append]

namespace OnConsole

variable {α β : Type}

/-! ## Single steps -/

theorem exec_bind (steps : OnConsole α) (next : α → OnConsole β) (threshold : Log.Level)
    (console : Console) :
    (steps >>= next).exec threshold console =
      match steps.exec threshold console with
      | (.ok a, later) => (next a).exec threshold later
      | (.error cause, later) => (.error cause, later) := by
  rw [exec, exec, ExceptT.run_bind, ReaderT.run_bind, StateT.run_bind]
  rcases ((ExceptT.run steps).run threshold).run console with ⟨result, later⟩
  cases result with
  | error cause => rfl
  | ok a => rfl

@[simp] theorem exec_pure (a : α) (threshold : Log.Level) (console : Console) :
    (pure a : OnConsole α).exec threshold console = (.ok a, console) := rfl

@[simp] theorem exec_throw (cause : Break) (threshold : Log.Level) (console : Console) :
    (throw cause : OnConsole α).exec threshold console = (.error cause, console) := rfl

@[simp] theorem exec_print (text : String) (threshold : Log.Level) (console : Console) :
    (print text).exec threshold console =
      (.ok (), { console with out := console.out ++ text }) := rfl

@[simp] theorem exec_printErr (text : String) (threshold : Log.Level) (console : Console) :
    (printErr text).exec threshold console =
      (.ok (), { console with err := console.err ++ text }) := rfl

@[simp] theorem exec_call (c : Reporting.Call) (threshold : Log.Level) (console : Console) :
    (call c).exec threshold console =
      (.ok (), { console with calls := console.calls ++ [c] }) := rfl

@[simp] theorem exec_orFail_ok (a : α) (threshold : Log.Level) (console : Console) :
    (orFail (.ok a)).exec threshold console = (.ok a, console) := rfl

theorem exec_emit (emission : Emission) (threshold : Log.Level) (console : Console) :
    (emit emission).exec threshold console =
      (.ok (), { console with err := console.err ++ emission.shown threshold }) := by
  cases emission with
  | text s => rfl
  | record r =>
    have hemit : (emit (.record r)).exec threshold console =
        (if r.isShown threshold then printErr r.line else pure ()).exec threshold console := rfl
    cases hshown : r.isShown threshold with
    | true => simp [hemit, hshown, Emission.shown]
    | false => simp [hemit, hshown, Emission.shown]

/-! ## Lists of steps -/

theorem exec_forM_emit (emissions : List Emission) (threshold : Log.Level)
    (console : Console) :
    (forM emissions emit).exec threshold console =
      (.ok (),
        { console with
          err := console.err ++ String.join (emissions.map (Emission.shown threshold)) }) := by
  induction emissions generalizing console with
  | nil => simp
  | cons emission emissions ih => simp [exec_bind, exec_emit, ih, String.append_assoc]

theorem exec_forM_log (records : List Log.Record) (threshold : Log.Level) (console : Console) :
    (forM records log).exec threshold console =
      (.ok (), { console with err := console.err ++ logText threshold records }) := by
  have hemit := exec_forM_emit (records.map .record) threshold console
  rw [join_shown_records, List.forM_map] at hemit
  exact hemit

theorem exec_forM_call (calls : List Reporting.Call) (threshold : Log.Level)
    (console : Console) :
    (forM calls call).exec threshold console =
      (.ok (), { console with calls := console.calls ++ calls }) := by
  induction calls generalizing console with
  | nil => simp
  | cons c calls ih => simp [exec_bind, ih]

/-! ## Procedures -/

theorem exec_startReporting (vars : Reporting.Variables) (threshold : Log.Level)
    (console : Console) :
    (startReporting vars).exec threshold console =
      (.ok (),
        { console with
          err := console.err ++ logText threshold (Reporting.start none vars).log
          calls := console.calls ++ (Reporting.start none vars).calls }) := by
  simp [startReporting, exec_bind, exec_forM_log, exec_forM_call, Reporting.start,
    logText_append, String.append_assoc]

/-- The events of a game are noted as they happen, and in the end all have been noted. -/
theorem exec_play (game : Game) (vs : List Value) (threshold : Log.Level) (console : Console) :
    (play game vs).exec threshold console =
      (.ok (game.playOn vs).result,
        { console with
          err := console.err ++
            logText threshold ((game.playOn vs).events.map Game.Event.record) }) := by
  induction vs generalizing game console with
  | nil => simp [play, Game.playOn, logText]
  | cons v vs ih =>
    cases hpins : Pins.check fullRack v with
    | error cause => simp [play, Game.playOn, hpins, logText]
    | ok pins =>
      cases hroll : game.roll (.int pins) with
      | error cause => simp [play, Game.playOn, hpins, hroll, logText]
      | ok result =>
        have hnotes := exec_forM_log (result.2.map Game.Event.record) threshold console
        simp only [play, Game.playOn, hpins, hroll, exec_bind, hnotes, ih, List.map_append,
          logText_append, String.append_assoc]

/-- Once error reporting has been started and the rolls have been played, the log of the
request has been written, and nothing else. -/
theorem exec_startReporting_play (request : Request) (vars : Reporting.Variables)
    (next : Except RollError Game → OnConsole α) (threshold : Log.Level) :
    (do startReporting vars; next (← play .new (request.rolls.map .text))).exec threshold {} =
      (next (Game.play (request.rolls.map .text)).result).exec threshold
        { err := logText threshold (request.log (Reporting.start none vars))
          calls := (Reporting.start none vars).calls } := by
  simp only [exec_bind, exec_startReporting, exec_play, String.empty_append, List.nil_append,
    ← logText_append]
  rfl

/-- The steps of a request write what its outcome says. -/
theorem exec_serve {request : Request} {vars : Reporting.Variables} {outcome : Outcome}
    (h : request.outcome (Reporting.start none vars) = .ok outcome) (threshold : Log.Level) :
    (serve request vars).exec threshold {} =
      (.ok outcome.exitCode, ⟨outcome.out, outcome.errText threshold, outcome.calls⟩) := by
  rw [serve, exec_startReporting_play]
  cases hresult : (Game.play (request.rolls.map .text)).result with
  | ok game =>
    have hreport := report_eq (Game.isLegal_of_play hresult) request.json
    rw [Request.outcome_of_played hresult] at h
    obtain rfl := Except.ok.inj h
    rw [Outcome.errText_of_records rfl]
    simp only [exec_bind, hreport, exec_orFail_ok, exec_print, exec_pure, String.empty_append]
  | error error =>
    obtain ⟨fault, hfault⟩ := Game.exists_fault_of_play hresult
    have hrejection := rejection_eq hfault request.json
    rw [Request.outcome_of_refused hresult] at h
    obtain rfl := Except.ok.inj h
    rw [Outcome.errText_of_records_text rfl, logText_append, ← join_shown_records threshold [_]]
    simp only [exec_bind, hfault, hrejection, exec_orFail_ok, exec_forM_emit, exec_pure]
    simp [Emission.shown, String.append_assoc]

end OnConsole

/-- Whatever the threshold is, the steps write what the outcome of the run says. -/
theorem transcript_eq {arguments : List String} {vars : Reporting.Variables}
    {outcome : Outcome} (h : run arguments vars = .ok outcome) (threshold : Log.Level) :
    transcript threshold arguments vars =
      .ok ⟨outcome.exitCode, outcome.out, outcome.errText threshold, outcome.calls⟩ := by
  cases hparse : parse arguments with
  | error stop =>
    rw [run, hparse] at h
    obtain rfl := Except.ok.inj h
    cases stop with
    | help =>
      simp [transcript, OnConsole.program, OnConsole.readArguments, OnConsole.exec_bind, hparse,
        Stop.outcome, Outcome.errText]
    | usage error =>
      simp [transcript, OnConsole.program, OnConsole.readArguments, OnConsole.exec_bind, hparse,
        Stop.outcome, Outcome.errText, Emission.shown]
  | ok request =>
    rw [run, hparse] at h
    have hserve := OnConsole.exec_serve h threshold
    simp [transcript, OnConsole.program, OnConsole.readArguments, hparse, hserve]

end Pinfall.CommandLine
