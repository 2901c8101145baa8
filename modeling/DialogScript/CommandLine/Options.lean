import DialogScript.Console.Terminal

/-!
# Command-line options

What the arguments of the program ask for. Of several values for one option the last counts; asking
for help or the version goes before playing.

## Main definitions

* `Options`, `Options.read`: the options, and the reading of arguments
* `UsageError`: why arguments cannot be read
* `helpText`, `versionText`
-/

namespace DialogScript.CommandLine

/-- Why the arguments ask for nothing that can be done. -/
inductive UsageError
  | labelMissing
  | nameMissing
  | pathMissing
  | unknownOption (argument : String)
  | secondFile
  | noFile
  deriving DecidableEq, Repr

/-- The text that tells what is wrong with the arguments. -/
def UsageError.message : UsageError → String
  | labelMissing => "--node requires a label"
  | nameMissing => "--actor requires a name"
  | pathMissing => "--states requires a path"
  | unknownOption argument => s!"unknown option: {argument}"
  | secondFile => "only one dialog file can be played"
  | noFile => "no dialog file given"

/-- What the arguments ask for. -/
structure Options where
  file : Option String := none
  /-- The label to start at. -/
  label : String := "start"
  actor : String := "player"
  /-- Code in conditions does not hold. -/
  denyCode : Bool := false
  /-- Chosen texts are not said. -/
  noParrot : Bool := false
  /-- The file that keeps the condition log. -/
  states : Option String := none
  /-- The dialog is printed, not played. -/
  dump : Bool := false
  help : Bool := false
  version : Bool := false
  deriving DecidableEq, Repr

namespace Options

/-- The options with what further arguments ask for. -/
def extend (o : Options) : List String → Except UsageError Options
  | [] => .ok o
  | argument :: rest =>
    match argument with
    | "-h" | "--help" => extend { o with help := true } rest
    | "-V" | "--version" => extend { o with version := true } rest
    | "--deny-code" => extend { o with denyCode := true } rest
    | "--dump" => extend { o with dump := true } rest
    | "--no-parrot" => extend { o with noParrot := true } rest
    | "-n" | "--node" =>
      match rest with
      | [] => .error .labelMissing
      | label :: rest => extend { o with label } rest
    | "-a" | "--actor" =>
      match rest with
      | [] => .error .nameMissing
      | actor :: rest => extend { o with actor } rest
    | "--states" =>
      match rest with
      | [] => .error .pathMissing
      | path :: rest => extend { o with states := some path } rest
    | _ =>
      if argument.toList.head? = some '-' then .error (.unknownOption argument)
      else if o.file.isSome then .error .secondFile
      else extend { o with file := some argument } rest

/-- The options that arguments ask for. -/
def read (arguments : List String) : Except UsageError Options := extend {} arguments

/-- How the console treats the dialog. -/
def console (o : Options) : ConsoleOptions := { allowCode := !o.denyCode }

/-- What the player starts with. -/
def config (o : Options) : Config := { parrot := !o.noParrot }

end Options

/-- The name and the version of the program. -/
def versionText : String := "yack 0.1.0\n"

/-- How the program is used. -/
def helpText : String :=
  versionText ++ "Play a Yack dialog in the terminal.\n" ++
  "\n" ++
  "USAGE:\n" ++
  "    yack [OPTIONS] <file.yack>\n" ++
  "\n" ++
  "OPTIONS:\n" ++
  "    -n, --node <label>    Label to start at (default: start)\n" ++
  "    -a, --actor <name>    Actor the dialog is started with (default: player)\n" ++
  "        --deny-code       Code conditions evaluate to false instead of true\n" ++
  "        --no-parrot       Do not have the actor say the chosen line\n" ++
  "        --states <path>   Load and save the condition log at this path\n" ++
  "        --dump            Print the parsed dialog and exit\n" ++
  "    -h, --help            Print this help\n" ++
  "    -V, --version         Print version\n" ++
  "\n" ++
  "Set RUST_LOG=yack_runtime=debug to trace the interpreter.\n"

end DialogScript.CommandLine
