import Pinfall.CommandLine.Run

/-!
# The program

The thin layer around a run: it hands over the arguments and the variables of the
environment, and writes what the run says.  Error reporting is left to whoever
installs a reporting service; none is called from here.
-/

open Pinfall

def main (arguments : List String) : IO UInt32 := do
  let level := Log.Level.ofSetting (← IO.getEnv "LOG_LEVEL")
  let vars : Reporting.Variables :=
    { dsn := ← IO.getEnv "SENTRY_DSN"
      environment := ← IO.getEnv "SENTRY_ENVIRONMENT"
      sampleRate := ← IO.getEnv Reporting.sampleRateVariable }
  match CommandLine.run arguments vars with
  | .ok outcome =>
    IO.print outcome.out
    IO.eprint (outcome.errText level)
    return outcome.exitCode.toUInt32
  | .error _ => return 1
