import Pinfall.Reporting.SampleRate

/-!
# Settings of error reporting

Where errors are reported to, under which environment's name, and the rate at
which traces are sampled.  They are read from the variables of the environment.
-/

namespace Pinfall.Reporting

/-- The variables that the settings are read from, as far as they are set. -/
structure Variables where
  dsn : Option String := none
  environment : Option String := none
  sampleRate : Option String := none
  deriving DecidableEq

/-- The settings of error reporting. -/
structure Settings where
  /-- The address that errors are reported to. -/
  dsn : Option String
  environment : Option String
  sampleRate : Number.Binary64
  deriving DecidableEq

/-- The name of the variable that holds the sample rate. -/
def sampleRateVariable : String := "SENTRY_TRACES_SAMPLE_RATE"

/-- The settings that the variables ask for, and the log.  Blank texts count as
not set. -/
def Variables.settings (vars : Variables) : Settings × List Log.Record :=
  let (rate, log) := readRate sampleRateVariable vars.sampleRate (.zero false)
  (⟨vars.dsn.bind Text.trimmed?, vars.environment.bind Text.trimmed?, rate⟩, log)

end Pinfall.Reporting
