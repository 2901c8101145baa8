import DialogScript.Text.Quoted
import DialogScript.Token

/-!
# Notices and records

Reading a dialog leaves out what it cannot use and says so in notices. A record is one line of a
journal: how serious it is, and its text.
-/

namespace DialogScript

/-- How serious a record is. -/
inductive Level
  | trace
  | debug
  | info
  | warning
  deriving DecidableEq, Repr

/-- One line of a journal. -/
structure Record where
  level : Level
  text : String
  deriving DecidableEq, Repr

/-- Something left out while a dialog was read. -/
inductive Notice
  /-- A character that begins no token. -/
  | unexpectedCharacter (text : List Char) (line : UInt32)
  /-- A line before the first label. -/
  | strayLine (text : List Char) (line : UInt32)
  /-- A token that begins no statement. -/
  | skippedToken (kind : TokenKind) (text : List Char) (line : UInt32)
  deriving DecidableEq, Repr

namespace Notice

private def quoted (cs : List Char) : String := String.ofList (Quoted.encode cs)

/-- The text of a notice. -/
def message : Notice → String
  | unexpectedCharacter text line => s!"unexpected character {quoted text} at line {line}"
  | strayLine text line => s!"skipping {quoted text} outside of any label at line {line}"
  | skippedToken kind text line =>
    s!"skipping unexpected {kind.name} {quoted text} at line {line}"

/-- A notice as a record; all notices are warnings. -/
def record (n : Notice) : Record := ⟨.warning, n.message⟩

/-- The notice that a token gives rise to by itself. -/
def ofLexeme? (l : Lexeme) : Option Notice :=
  if l.kind = .unknown then some (.unexpectedCharacter l.text l.line) else none

end Notice

end DialogScript
