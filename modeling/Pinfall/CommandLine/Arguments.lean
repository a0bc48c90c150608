import Pinfall.Text.DecimalDigit
import Pinfall.Text.Split

/-!
# Command-line arguments

The arguments are the rolls of a game and two switches.  A switch may be cut
short as long as it stays recognisable.  The first run of arguments that are no
switches holds the rolls; `--` makes every argument after it such an argument.
-/

namespace Pinfall.CommandLine

/-- The switches of the command line. -/
inductive Switch where
  | help
  | json
  deriving DecidableEq

/-- Why arguments are refused. -/
inductive UsageError where
  /-- A switch that is cut too short. -/
  | ambiguous (argument : String)
  /-- A value given to a switch, which takes none. -/
  | surplusValue (switch : Switch) (value : String)
  | unrecognized (arguments : List String)
  deriving DecidableEq

/-- Why the program stops before it plays. -/
inductive Stop where
  | help
  | usage (error : UsageError)
  deriving DecidableEq

/-- What the arguments ask for. -/
structure Request where
  rolls : List String
  json : Bool
  deriving DecidableEq

/-- The role of an argument. -/
inductive Token where
  | positional (text : String)
  | switch (switch : Switch)
  /-- A switch with a value. -/
  | surplus (switch : Switch) (value : String)
  | unknown (text : String)
  deriving DecidableEq

/-- The switches and their names, long ones last. -/
def switchNames : List (String × Switch) :=
  [("-h", .help), ("--help", .help), ("--json", .json)]

/-- A minus sign and a decimal number, with or without a point; a line feed may
follow. -/
def isNegativeNumber : List Char → Bool
  | '-' :: rest =>
    let number := if rest.getLast? = some '\n' then rest.dropLast else rest
    match Text.splitAtFirst (· = '.') number with
    | (whole, none) => !whole.isEmpty && whole.all Text.isDecimalDigit
    | (whole, some fraction) =>
      whole.all Text.isDecimalDigit && !fraction.isEmpty && fraction.all Text.isDecimalDigit
  | _ => false

/-- The short switch for help followed by more characters: the same switch again
any number of times, or else a value.  The value makes the switch a surplus one, so
that `-hx` is an error, as it was for long in parsers of this kind; their latest
versions, which are not modelled, show the help instead. -/
def shortHelp (value : List Char) : Token :=
  let rest := value.dropWhile (· = 'h')
  if rest.isEmpty && !value.isEmpty then .switch .help
  else .surplus .help (String.ofList rest)

/-- A switch under its full name, perhaps with a value. -/
def fullName? (name : List Char) (value : Option (List Char)) : Option Token :=
  (switchNames.lookup (String.ofList name)).map fun switch =>
    match value with
    | none => .switch switch
    | some value =>
      if name = ['-', 'h'] then shortHelp value
      else .surplus switch (String.ofList value)

/-- The switches with long names that a text starts. -/
def abbreviated (start : List Char) : List Switch :=
  (switchNames.filter fun (name, _) => start.isPrefixOf name.toList).map Prod.snd

/-- An argument that starts with a minus sign and is no full name of a switch. -/
def dashed (argument : String) : Except UsageError Token :=
  let cs := argument.toList
  let (start, value) := Text.splitAtFirst (· = '=') cs
  let candidates := if ['-', '-'].isPrefixOf cs then abbreviated start else []
  match cs, candidates with
  | '-' :: 'h' :: rest, _ => .ok (shortHelp rest)
  | _, [switch] =>
    .ok (match value with
      | none => .switch switch
      | some value => .surplus switch (String.ofList value))
  | _, _ :: _ :: _ => .error (.ambiguous argument)
  | _, [] =>
    if isNegativeNumber cs || cs.contains ' ' then .ok (.positional argument)
    else .ok (.unknown argument)

/-- The role of an argument in front of `--`. -/
def classify (argument : String) : Except UsageError Token :=
  match argument.toList with
  | '-' :: _ :: _ =>
    let (name, value) := Text.splitAtFirst (· = '=') argument.toList
    match fullName? name value with
    | some token => .ok token
    | none => dashed argument
  | _ => .ok (.positional argument)

/-- The roles of all arguments. -/
def tokens : List String → Except UsageError (List Token)
  | [] => .ok []
  | argument :: rest =>
    if argument = "--" then .ok (.positional argument :: rest.map .positional)
    else
      match classify argument with
      | .error error => .error error
      | .ok token =>
        match tokens rest with
        | .error error => .error error
        | .ok others => .ok (token :: others)

/-- How far the run of rolls has come. -/
inductive Run where
  | notBegun
  | going
  | ended
  deriving DecidableEq

/-- The run of rolls is over with the next switch. -/
def Run.interrupted : Run → Run
  | .going => .ended
  | run => run

/-- What has been read of the arguments. -/
structure Reading where
  rolls : List String := []
  json : Bool := false
  /-- Arguments that have no meaning. -/
  leftOver : List String := []
  run : Run := .notBegun

/-- Take the arguments one after the other.  Help and values of switches stop the
reading where they are met. -/
def Reading.readOn (reading : Reading) : List Token → Except Stop Reading
  | [] => .ok reading
  | .positional text :: rest =>
    match reading.run with
    | .ended => { reading with leftOver := reading.leftOver ++ [text] }.readOn rest
    | _ => { reading with rolls := reading.rolls ++ [text], run := .going }.readOn rest
  | .switch .help :: _ => .error .help
  | .switch .json :: rest =>
    { reading with json := true, run := reading.run.interrupted }.readOn rest
  | .surplus switch value :: _ => .error (.usage (.surplusValue switch value))
  | .unknown text :: rest =>
    { reading with
      leftOver := reading.leftOver ++ [text]
      run := reading.run.interrupted }.readOn rest

/-- What the arguments ask for.  The first `--` is no roll. -/
def parse (arguments : List String) : Except Stop Request :=
  match tokens arguments with
  | .error error => .error (.usage error)
  | .ok tokens =>
    match ({} : Reading).readOn tokens with
    | .error stop => .error stop
    | .ok reading =>
      if reading.leftOver.isEmpty then .ok ⟨reading.rolls.erase "--", reading.json⟩
      else .error (.usage (.unrecognized reading.leftOver))

end Pinfall.CommandLine
