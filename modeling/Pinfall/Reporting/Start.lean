import Pinfall.Reporting.Settings

/-!
# Starting error reporting

Error reporting is started if there is an address to report to.  The call of the
reporting service is part of the outcome; nothing is sent from here.
-/

namespace Pinfall.Reporting

/-- The call that starts the reporting service. -/
structure Call where
  dsn : String
  environment : Option String
  sampleRate : Number.Binary64
  /-- Log records from this level on are reported as events. -/
  eventLevel : Log.Level
  /-- Log records from this level on are kept as the history of an event. -/
  historyLevel : Log.Level
  deriving DecidableEq

/-- What starting came to. -/
structure Started where
  enabled : Bool
  calls : List Call
  log : List Log.Record

/-- Start error reporting with given settings. -/
def startWith (settings : Settings) : Started :=
  match settings.dsn with
  | none =>
    { enabled := false
      calls := []
      log := [⟨.debug, .reporting, "SENTRY_DSN not set; error reporting disabled"⟩] }
  | some dsn =>
    { enabled := true
      calls :=
        [{ dsn := dsn
           environment := settings.environment
           sampleRate := settings.sampleRate
           eventLevel := .error
           historyLevel := .info }]
      log :=
        [⟨.info, .reporting,
          "Error reporting enabled (environment=" ++ settings.environment.getD "None" ++ ")"⟩] }

/-- Start error reporting: with the settings given, or else with those that the
variables ask for. -/
def start (settings : Option Settings) (vars : Variables) : Started :=
  match settings with
  | some settings => startWith settings
  | none =>
    let (settings, log) := vars.settings
    let started := startWith settings
    { started with log := log ++ started.log }

end Pinfall.Reporting
