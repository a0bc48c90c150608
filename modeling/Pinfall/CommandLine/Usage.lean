import Pinfall.CommandLine.Arguments
import Pinfall.Text.Quoted

/-!
# Usage texts

The usage line, the help text, and the wording of usage errors.
-/

namespace Pinfall.CommandLine

/-- The line that shows the arguments. -/
def usageLine : String :=
  "usage: tenpin-score [-h] [--json] [rolls ...]\n"

/-- The help text. -/
def helpText : String :=
  usageLine ++
    "\nRecord each roll in order and print the frame-by-frame game state followed by\n" ++
    "the total score.\n" ++
    "\npositional arguments:\n" ++
    "  rolls       Pins knocked down by each roll, in the order they were bowled\n" ++
    "\noptions:\n" ++
    "  -h, --help  show this help message and exit\n" ++
    "  --json      Print the game summary (or the error) as JSON.\n"

/-- A switch by all its names. -/
def Switch.names : Switch → String
  | .help => "-h/--help"
  | .json => "--json"

/-- The wording of a usage error. -/
def UsageError.message : UsageError → String
  | .ambiguous argument =>
    "ambiguous option: " ++ argument ++ " could match --help, --json"
  | .surplusValue switch value =>
    "argument " ++ switch.names ++ ": ignored explicit argument " ++ Text.quoted value
  | .unrecognized arguments =>
    "unrecognized arguments: " ++ String.intercalate " " arguments

/-- What is written about a usage error. -/
def UsageError.text (error : UsageError) : String :=
  usageLine ++ "tenpin-score: error: " ++ error.message ++ "\n"

end Pinfall.CommandLine
