import DialogScript.Error
import DialogScript.Notice
import DialogScript.Script.Clause

/-!
# Reading a script

The clauses of a source make up a script: each head of a label opens a label, to which the
statements up to the next head belong. A source with a fault is no script; the error points at the
lexeme that raised the expectation.

What is left out is told in notices. A notice about a character is given when the reading comes to
the lexeme behind it, and the reading looks at no more lexemes than it needs to.

## Main definitions

* `Script.ofClauses`: the script of a list of clauses
* `Script.read`: the script of a source, or the error in it
* `Script.notices`: the notices given while a source is read
-/

namespace DialogScript

/-- The statements before the first head of a label, and the labels from it on. -/
def gather : List Clause → List Statement × List Label
  | [] => ([], [])
  | .label name :: cs => ([], ⟨name, (gather cs).1⟩ :: (gather cs).2)
  | .statement s :: cs => (s :: (gather cs).1, (gather cs).2)
  | _ :: cs => gather cs

/-- The error that tells of a fault in a source. -/
def Fault.error (source : List Char) : Fault → Error
  | .unmet e anchor =>
    { kind := .malformed e.message anchor.line ((columnAt? source anchor.start).getD 1)
        (String.ofList (lineTextAt source anchor.start)) }
  | .unknownWord w => { kind := .unknownInstruction w.string w.line }

namespace Script

/-- The script of a list of clauses. -/
def ofClauses (cs : List Clause) : Script := ⟨(gather cs).2⟩

/-- The script of a source, or the error in it. -/
def readChars (source : List Char) : Except Error Script :=
  match Clause.all false (significant source) with
  | .ok clauses => .ok (ofClauses clauses)
  | .error failure => .error (failure.fault.error source)

/-- The script of a source, or the error in it. -/
def read (source : String) : Except Error Script := readChars source.toList

theorem read_ofList (source : List Char) : read (String.ofList source) = readChars source := by
  rw [read, String.toList_ofList]

end Script

/-! ### Notices -/

/-- How far a source has been looked at: up to the lexeme that starts at an offset, or, with no
offset, to the end. -/
abbrev Horizon := Option Nat

namespace Horizon

/-- The horizon when the first of the lexemes has been looked at. -/
def front (ls : List Lexeme) : Horizon := ls.head?.map (·.start)

/-- The farther of two horizons. -/
def max : Horizon → Horizon → Horizon
  | some a, some b => some (Nat.max a b)
  | _, _ => none

/-- A lexeme lies before the horizon. -/
def covers (h : Horizon) (l : Lexeme) : Bool := h.all (l.start < ·)

/-- The horizon when it is known which kind of clause begins with `l` inside a label. -/
def deciding (l : Lexeme) (ls : List Lexeme) : Horizon :=
  match l.kind, ls with
  | .word, next :: rest => if next.kind = .colon then front rest else some next.start
  | .word, [] => none
  | .colon, _ => front ls
  | _, _ => some l.start

end Horizon

namespace Notice

/-- The notice that a clause beginning with `l` gives rise to, and the horizon when it is given. -/
def ofClause? (source : List Char) (l : Lexeme) (ls : List Lexeme) :
    Clause → Option (Notice × Horizon)
  | .stray first =>
    some (.strayLine (trimEnd (lineTextAt source first.start)) first.line,
      if l.kind = .colon then .front ls else some l.start)
  | .skipped token =>
    some (.skippedToken token.kind token.text token.line, Horizon.deciding l ls)
  | _ => none

/-- The notices that at most `n` clauses give rise to, with their horizons, and the horizon at the
end. -/
def ofClauses (source : List Char) :
    Nat → Bool → List Lexeme → List (Notice × Horizon) × Horizon
  | 0, _, _ => ([], none)
  | _ + 1, _, [] => ([], none)
  | n + 1, opened, l :: ls =>
    match Clause.read opened l ls with
    | .error failure => ([], (Horizon.deciding l ls).max (.front failure.found))
    | .ok (clause, rest) =>
      let (notices, last) := ofClauses source n (opened || clause.isLabel) rest
      ((ofClause? source l ls clause).toList ++ notices, last)

/-- Notices about clauses, each after the notices about characters before its horizon. -/
def weave (characters : List Lexeme) (last : Horizon) : List (Notice × Horizon) → List Notice
  | [] => (characters.takeWhile last.covers).filterMap ofLexeme?
  | (notice, horizon) :: rest =>
    (characters.takeWhile horizon.covers).filterMap ofLexeme? ++
      notice :: weave (characters.dropWhile horizon.covers) last rest

end Notice

/-- The notices given while a source is read, in order. -/
def Script.notices (source : String) : List Notice :=
  let cs := source.toList
  let ls := significant cs
  let (found, last) := Notice.ofClauses cs ls.length false ls
  Notice.weave ((lexemes cs).filter (·.kind = .unknown)) last found

end DialogScript
