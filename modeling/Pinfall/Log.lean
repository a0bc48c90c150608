import Pinfall.Text.Blank
import Pinfall.Text.UpperCase

/-!
# Log records

Levels, the parts of the program that log, and records.  A record is shown if
its level is at least as severe as a threshold, on a line of its own.
-/

namespace Pinfall.Log

/-- The names of levels. -/
inductive Level where
  | critical
  | fatal
  | error
  | warn
  | warning
  | info
  | debug
  | notset
  deriving DecidableEq

namespace Level

def all : List Level :=
  [.critical, .fatal, .error, .warn, .warning, .info, .debug, .notset]

def name : Level → String
  | .critical => "CRITICAL"
  | .fatal => "FATAL"
  | .error => "ERROR"
  | .warn => "WARN"
  | .warning => "WARNING"
  | .info => "INFO"
  | .debug => "DEBUG"
  | .notset => "NOTSET"

def severity : Level → Nat
  | .critical | .fatal => 50
  | .error => 40
  | .warn | .warning => 30
  | .info => 20
  | .debug => 10
  | .notset => 0

/-- The level with the given name. -/
def ofName? (name : String) : Option Level :=
  all.find? (·.name == name)

/-- The level that a setting asks for, in any case and with blanks around it:
`WARNING` if it is missing or names no level. -/
def ofSetting (setting : Option String) : Level :=
  (ofName? (Text.upperCase (Text.trim (setting.getD "")))).getD .warning

end Level

/-- The parts of the program that log. -/
inductive Source where
  | game
  | users
  | settings
  | reporting
  | commandLine
  deriving DecidableEq

def Source.name : Source → String
  | .game => "tenpin.scoring.bowling"
  | .users => "tenpin.services.users"
  | .settings => "tenpin.config"
  | .reporting => "tenpin.utils.sentry"
  | .commandLine => "tenpin.cli"

/-- One record. -/
structure Record where
  level : Level
  source : Source
  message : String
  deriving DecidableEq

namespace Record

/-- A record is shown from a threshold on. -/
def isShown (threshold : Level) (record : Record) : Bool :=
  threshold.severity ≤ record.level.severity

/-- The line of a record. -/
def line (record : Record) : String :=
  record.level.name ++ ":" ++ record.source.name ++ ":" ++ record.message ++ "\n"

end Record

end Pinfall.Log
