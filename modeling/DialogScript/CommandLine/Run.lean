import DialogScript.CommandLine.Options
import DialogScript.Console.Play
import DialogScript.FileTree
import DialogScript.Script.Printer

/-!
# Runs of the program

A run reads its arguments, then the dialog file and the file with the condition log, plays the
dialog, and saves the log. If it fails it says why and writes no file.

## Main definitions

* `Plan`: what a run has to do
* `Failure`: why a run fails
* `Options.stage`: the player at the beginning of the dialog
* `Desk`: where the program runs
* `runAt`, `run`, `Report`: a run, and what it leaves behind
-/

namespace DialogScript.CommandLine

/-- Why a run fails. -/
inductive Failure
  | usage (e : UsageError)
  /-- The dialog file cannot be read; the text tells why. -/
  | unreadable (path reason : String)
  | dialog (e : Error)
  deriving DecidableEq, Repr

/-- The text that tells why a run fails. -/
def Failure.message : Failure → String
  | usage e => e.message
  | unreadable path reason => s!"failed to read '{path}': {reason}"
  | dialog e => e.message

/-- The line about a failure, in red. -/
def Failure.line (f : Failure) : String := s!"\x1b[31mError: {f.message}\x1b[0m\n"

/-- The line about a dialog that the user has left, in faint letters. -/
def abandonedLine : String := "\x1b[2m(dialog abandoned)\x1b[0m\n"

/-- What a run has to do. -/
inductive Plan
  /-- To print a text. -/
  | tell (text : String)
  /-- To print a text and fail. -/
  | refuse (text : String) (reason : UsageError)
  /-- To print or play the dialog in a file. -/
  | openFile (path : String) (o : Options)
  deriving Repr

/-- What arguments ask for. -/
def plan (arguments : List String) : Plan :=
  match Options.read arguments with
  | .error e => .refuse "" e
  | .ok o =>
    if o.help then .tell helpText
    else if o.version then .tell versionText
    else
      match o.file with
      | none => .refuse helpText .noFile
      | some path => .openFile path o

/-- A file name without its last extension. A dot in front begins no extension. -/
def stem (fileName : String) : String :=
  let cs := fileName.toList.reverse
  let before := (cs.dropWhile (· ≠ '.')).drop 1
  if before = [] then fileName else String.ofList before.reverse

/-- The name of the dialog in the file at a path. -/
def dialogName (path : String) : String :=
  stem ((FileTree.components path).getLast?.getD "dialog")

/-- The source text that the bytes of a dialog file hold. -/
def sourceText (content : List UInt8) : String := String.ofList (Utf8.decodeLossy content)

/-- The print of a dialog. -/
def dump (source : String) : Except Failure String :=
  ((Script.read source).mapError Failure.dialog).map fun script => script.print

/-- The player before its first dialog. -/
def Options.player (o : Options) (log : Log) : Player Deadline :=
  ((Player.new (Loader.ofDialogs [])).withConfig o.config).withLog log

/-- The start of the dialog in a file. -/
def Options.start (o : Options) (path source : String) (s : Console.Stage) :
    Option Error × Console.Stage :=
  s.startSource (Terminal.host o.console) o.actor (dialogName path) o.label source

/-- The player at the beginning of the dialog in a file. -/
def Options.stage (o : Options) (path source : String) (terminal : Terminal) (log : Log) :
    Except Failure Console.Stage :=
  match o.start path source { player := o.player log, host := terminal } with
  | (some e, _) => .error (.dialog e)
  | (none, s) => .ok s

/-- Where the program runs: the room for its output and the editor that reads its input. -/
structure Desk (ε : Type) where
  /-- How many bytes there is room for on standard output. -/
  room : Option Nat := none
  editor : LineEditor ε
  /-- The editor when it is opened, or why it cannot be. -/
  opened : Except Error ε
  /-- What the editor has written on standard error. -/
  messages : ε → String

/-- A desk with piped input. -/
def Desk.piped (input : List Char) : Desk PipedInput where
  editor := PipedInput.editor
  opened := .ok { input }
  messages := PipedInput.messages

/-- What a run leaves behind. -/
structure Report where
  /-- Zero if the run has succeeded, one if it has failed, and 101 if it has been broken off. -/
  code : Nat
  /-- The text on standard output. -/
  output : String
  /-- The text on standard error. What the system says of a run that is broken off is left out. -/
  messages : String
  files : FileTree
  deriving Repr

/-- The report of a run that fails. -/
def Report.failed (output messages : String) (files : FileTree) (f : Failure) : Report :=
  ⟨1, output, messages ++ f.line, files⟩

/-- The report of a run that prints a text of its own and goes on. Without room for all of the text
the run is broken off. -/
def Report.telling (terminal : Terminal) (text messages : String) (files : FileTree)
    (next : (output : String) → Report) : Report :=
  match terminal.print text with
  | (true, terminal) => next terminal.output
  | (false, terminal) => ⟨101, terminal.output, messages, files⟩

/-- The condition log that a run begins with: what the file for it holds, if it is there. -/
def initialLog (files : FileTree) : Option String → Except Failure Log
  | none => .ok {}
  | some path => if files.has path then (files.loadLog path).mapError .dialog else .ok {}

/-- Saves the condition log at the end of a run, if there is a file for it. -/
def saveFinalLog (files : FileTree) (log : Log) : Option String → Except Failure FileTree
  | none => .ok files
  | some path => (files.saveLog path log).mapError .dialog

/-- The report of a run that has played its dialog. -/
def Report.played (o : Options) (messages : String) (files : FileTree) (s : Console.Stage) :
    Except Error Console.Outcome → Report
  | .error e => .failed s.host.output messages files (.dialog e)
  | .ok outcome =>
    .telling s.host (if outcome = .quit then abandonedLine else "") messages files fun output =>
      match saveFinalLog files s.player.log o.states with
      | .error f => .failed output messages files f
      | .ok files => ⟨0, output, messages, files⟩

variable {ε : Type}

/-- Plays the dialog in a file. -/
def playFile (desk : Desk ε) (turns : Nat) (path : String) (o : Options) (source : String)
    (files : FileTree) : Option Report :=
  match (initialLog files o.states).bind (o.stage path source { capacity := desk.room }) with
  | .error f => some (.failed "" "" files f)
  | .ok s =>
    match desk.opened with
    | .error e => some (.failed s.host.output "" files (.dialog e))
    | .ok editor => do
      let (result, s, editor) ← Console.play o.console desk.editor turns .due s editor
      return .played o (desk.messages editor) files s result

/-- A run of the program with some arguments on files, at a desk. Without a report, the given number
of turns at the console does not suffice. -/
def runAt (desk : Desk ε) (turns : Nat) (arguments : List String) (files : FileTree) :
    Option Report :=
  let terminal : Terminal := { capacity := desk.room }
  match plan arguments with
  | .tell text => some (.telling terminal text "" files fun output => ⟨0, output, "", files⟩)
  | .refuse text e =>
    some (.telling terminal text "" files fun output => .failed output "" files (.usage e))
  | .openFile path o =>
    match files.read path with
    | .error e => some (.failed "" "" files (.unreadable path e.message))
    | .ok content =>
      let source := sourceText content
      if o.dump then
        match dump source with
        | .error f => some (.failed "" "" files f)
        | .ok print =>
          some (.telling terminal print "" files fun output => ⟨0, output, "", files⟩)
      else playFile desk turns path o source files

/-- A run of the program with some arguments on files and piped input. -/
def run (turns : Nat) (arguments : List String) (files : FileTree) (input : String) :
    Option Report := runAt (.piped input.toList) turns arguments files

end DialogScript.CommandLine
