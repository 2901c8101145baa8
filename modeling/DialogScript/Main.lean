import DialogScript.CommandLine.Run

/-!
# The program

Plays a dialog on standard input and output, line by line. All that is decided is decided by
`CommandLine.plan`, `Options.stage`, `Venue.proceed` and `Venue.answer`; here files are read and
written, and texts are exchanged.
-/

namespace DialogScript.CommandLine

/-- The error of a file tree that a failure of the system is. -/
def systemError? : IO.Error → Option SystemError
  | .noFileOrDirectory .. => some .notFound
  | .inappropriateType _ code _ =>
    some (if code = 20 ∨ code = -20 then .notADirectory else .isADirectory)
  | _ => none

/-- The text that tells of a failure of the system. -/
def reason (e : IO.Error) : String :=
  match systemError? e with
  | some e => e.message
  | none => e.toString

/-- The content of a file. -/
def readFile (path : String) : IO (Except IO.Error (List UInt8)) :=
  try
    let content ← IO.FS.readBinFile path
    return .ok content.data.toList
  catch e => return .error e

/-- The condition log that a run begins with. -/
def readLog : Option String → IO (Except Failure Log)
  | none => return .ok {}
  | some path => do
    match ← readFile path with
    | .ok content => return (Log.ofSaved content).mapError .dialog
    | .error e =>
      match systemError? e with
      | some .notFound | some .notADirectory => return .ok {}
      | _ => return .error (.dialog { kind := .io s!"failed to read file '{path}': {reason e}" })

/-- Saves the condition log at the end of a run. -/
def writeLog (log : Log) : Option String → IO (Except Failure Unit)
  | none => return .ok ()
  | some path =>
    try
      IO.FS.writeBinFile path ⟨log.toBytes.toArray⟩
      return .ok ()
    catch e =>
      return .error (.dialog { kind := .io s!"failed to create file '{path}': {reason e}" })

/-- Reads lines up to one that is not refused. -/
partial def listen (count : Nat) (refused : List Char) : IO Reply := do
  let line ← (← IO.getStdin).getLine
  if line = "" then return .endOfInput
  let text := PipedInput.joined refused line.toList
  match PipedInput.refusal? count text with
  | none => return .line (String.ofList text)
  | some message =>
    IO.eprint message
    listen count text

/-- Plays a dialog, of which a number of bytes has been printed so far. -/
partial def converse (o : ConsoleOptions) (shown : Nat) (t : Console.Turn) (s : Console.Stage) :
    IO (Except Error Console.Outcome × Console.Stage) := do
  let output ← IO.getStdout
  output.write ⟨s.host.printed.extract shown⟩
  output.flush
  let shown := s.host.printed.size
  match t with
  | .over result => return (result, s)
  | .due =>
    let (t, next) := (Console.terminal o).proceed s
    if s.host.now < next.host.now then IO.sleep 16
    converse o shown t next
  | .asking count =>
    let reply ← listen count []
    let (t, s, _) := (Console.terminal o).answer count reply s
    converse o shown t s

/-- Tells why a run has failed. -/
def fail (f : Failure) : IO UInt32 := do
  IO.eprint f.line
  return 1

/-- Plays the dialog in a file. -/
def playLive (path : String) (o : Options) (source : String) : IO UInt32 := do
  match (← readLog o.states).bind (o.stage path source {}) with
  | .error f => fail f
  | .ok s =>
    match ← converse o.console 0 .due s with
    | (.error e, _) => fail (.dialog e)
    | (.ok outcome, s) =>
      if outcome = .quit then IO.print abandonedLine
      match ← writeLog s.player.log o.states with
      | .error f => fail f
      | .ok () => return 0

/-- A run of the program. -/
def runLive (arguments : List String) : IO UInt32 := do
  match plan arguments with
  | .tell text =>
    IO.print text
    return 0
  | .refuse text e =>
    IO.print text
    fail (.usage e)
  | .openFile path o =>
    match ← readFile path with
    | .error e => fail (.unreadable path (reason e))
    | .ok content =>
      let source := sourceText content
      if o.dump then
        match dump source with
        | .error f => fail f
        | .ok print =>
          IO.print print
          return 0
      else playLive path o source

end DialogScript.CommandLine

def main (arguments : List String) : IO UInt32 := DialogScript.CommandLine.runLive arguments
