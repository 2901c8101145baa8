/-!
# Errors

What can go wrong when a dialog is read, found, stored or played, and how each case is told to
the user.
-/

namespace DialogScript

/-- The cause of an error. -/
inductive ErrorKind
  /-- Source that is not a dialog: what was expected, the position and the source line. -/
  | malformed (message : String) (line column : UInt32) (text : String)
  /-- A word in the place of an instruction that is none. -/
  | unknownInstruction (name : String) (line : UInt32)
  /-- No dialog has the name. -/
  | dialogNotFound (name : String)
  /-- A file cannot be read or written. -/
  | io (message : String)
  /-- Bytes that are not a condition log. -/
  | serialization (message : String)
  /-- Any other failure of the surroundings. -/
  | internal (message : String)
  deriving DecidableEq, Repr

/-- The text that tells the cause to the user. -/
def ErrorKind.message : ErrorKind → String
  | .malformed message line column _ => s!"parse error at {line}:{column}: {message}"
  | .unknownInstruction name line => s!"unknown instruction '{name}' at line {line}"
  | .dialogNotFound name => s!"dialog not found: {name}"
  | .io message => s!"I/O error: {message}"
  | .serialization message => s!"serialization error: {message}"
  | .internal message => s!"internal error: {message}"

/-- The cause lies in the source of a dialog. -/
def ErrorKind.isParseError : ErrorKind → Bool
  | .malformed .. | .unknownInstruction .. => true
  | _ => false

/-- Where an error arose: a file and a position in it, as far as known. -/
structure ErrorContext where
  source : Option String := none
  line : Option Nat := none
  column : Option Nat := none
  deriving DecidableEq, Repr

/-- The text of a context. It names no position unless the file and both parts are known. -/
def ErrorContext.text : ErrorContext → String
  | ⟨none, _, _⟩ => ""
  | ⟨some source, some line, some column⟩ => s!"in {source}:{line}:{column}"
  | ⟨some source, _, _⟩ => s!"in {source}"

/-- An error: its cause and, if known, where it arose. -/
structure Error where
  kind : ErrorKind
  context : Option ErrorContext := none
  deriving DecidableEq, Repr

namespace Error

/-- The text that tells the error to the user; it does not mention the context. -/
def message (e : Error) : String := e.kind.message

/-- The error arose while a dialog was read. -/
def isParseError (e : Error) : Bool := e.kind.isParseError

/-- The same error, arisen in the given context. -/
def within (e : Error) (context : ErrorContext) : Error := { e with context := some context }

end Error

end DialogScript
