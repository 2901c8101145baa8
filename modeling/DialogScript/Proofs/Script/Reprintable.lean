import DialogScript.Proofs.Token.CodeRun
import DialogScript.Script.Printer
import DialogScript.Script.Reading

/-!
# Scripts that can be printed and read again

A script is printed clause by clause. Most clauses are read back as they are; what can go wrong is
said here, one condition for each form of statement.

* A text of a choice that holds a quote is printed between quotes and ends at its own.
* An infinite number of seconds is printed as a word.
* A bracket of code behind a space begins a condition, unless a space follows it; and the bracket of
  a condition that begins with a space begins none.
* Line numbers stop growing at the largest one. From there on, a keyword without its argument takes
  the next line for it; before, the text of a choice may not run over its line.

## Main definitions

* `Script.withoutLines`: a script with the lines of its conditions forgotten
* `Statement.relined`: a statement whose conditions have the lines on which they are printed
* `Script.clauses`: the clauses that a script is printed as
* `Statement.Reprintable`, `Script.Reprintable`: a statement and a script are read back

## Main results

* `gather_clauses`: a script is made up of its clauses
* `labelChars_eq`: a script is printed clause by clause
-/

namespace DialogScript

/-! ### Lines forgotten -/

def Condition.withoutLine (c : Condition) : Condition := { c with line := 0 }

def Statement.withoutLines (s : Statement) : Statement :=
  { s with conditions := s.conditions.map Condition.withoutLine }

def Label.withoutLines (l : Label) : Label :=
  { l with statements := l.statements.map Statement.withoutLines }

/-- The script with the lines of its conditions forgotten. -/
def Script.withoutLines (u : Script) : Script := ⟨u.labels.map Label.withoutLines⟩

/-! ### Lines in print -/

/-- Conditions that are printed one behind the other after `n` line feeds, each with the line that
`line` gives for the line feeds printed before it. -/
def Condition.relined (line : Nat → UInt32) : Nat → List Condition → List Condition
  | _, [] => []
  | n, c :: cs => { c with line := line n } :: relined line (n + c.chars.count '\n') cs

/-- The statement, printed after `n` line feeds, with the lines that `line` gives for the line feeds
printed before each of its conditions. -/
def Statement.relined (line : Nat → UInt32) (layout : Layout) (n : Nat) (s : Statement) :
    Statement :=
  { s with conditions :=
      Condition.relined line (n + (s.instruction.chars layout).count '\n') s.conditions }

theorem Condition.withoutLine_relined (line : Nat → UInt32) (n : Nat) (cs : List Condition) :
    (relined line n cs).map withoutLine = cs.map withoutLine := by
  induction cs generalizing n with
  | nil => rfl
  | cons c cs ih =>
      rw [relined, List.map_cons, List.map_cons, ih]
      rfl

theorem Statement.withoutLines_relined (line : Nat → UInt32) (layout : Layout) (n : Nat)
    (s : Statement) : (s.relined line layout n).withoutLines = s.withoutLines := by
  rw [withoutLines, withoutLines, relined, Condition.withoutLine_relined]

/-! ### Clauses -/

/-- The clauses that a label is printed as. -/
def Label.clauses (l : Label) : List Clause := .label l.name :: l.statements.map .statement

/-- The clauses that a script is printed as. -/
def Script.clauses (u : Script) : List Clause := u.labels.flatMap Label.clauses

theorem gather_statements (ss : List Statement) (cs : List Clause) :
    gather (ss.map .statement ++ cs) = (ss ++ (gather cs).1, (gather cs).2) := by
  induction ss with
  | nil => rfl
  | cons s ss ih => rw [List.map_cons, List.cons_append, gather, ih, List.cons_append]

/-- A script is made up of its clauses. -/
theorem gather_clauses (ls : List Label) : gather (ls.flatMap Label.clauses) = ([], ls) := by
  induction ls with
  | nil => rfl
  | cons l ls ih =>
      rw [List.flatMap_cons, Label.clauses, List.cons_append, gather, gather_statements, ih,
        List.append_nil]

/-- The printed form of clauses behind the head of the first label. -/
def printedChars (layout : Layout) : List Clause → List Char
  | [] => []
  | .label name :: cs =>
    (if layout.blankLineBetweenLabels then ['\n'] else []) ++
      ':' :: (name.toList ++ '\n' :: printedChars layout cs)
  | .statement s :: cs => s.chars layout ++ '\n' :: printedChars layout cs
  | _ :: cs => printedChars layout cs

theorem printedChars_statements (layout : Layout) (ss : List Statement) (cs : List Clause) :
    printedChars layout (ss.map .statement ++ cs) =
      (ss.flatMap fun s => s.chars layout ++ ['\n']) ++ printedChars layout cs := by
  induction ss with
  | nil => rfl
  | cons s ss ih => simp [printedChars, ih]

/-- A script is printed clause by clause. -/
theorem labelChars_eq (layout : Layout) (l : Label) (ls : List Label) :
    labelChars layout (l :: ls) = ':' :: (l.name.toList ++ '\n' ::
      printedChars layout (l.statements.map .statement ++ ls.flatMap Label.clauses)) := by
  have hrest (ls : List Label) : printedChars layout (ls.flatMap Label.clauses) =
      ls.flatMap fun next =>
        (if layout.blankLineBetweenLabels then ['\n'] else []) ++ next.chars layout := by
    induction ls with
    | nil => rfl
    | cons l ls ih =>
        rw [List.flatMap_cons, Label.clauses, List.cons_append, printedChars,
          printedChars_statements, ih, List.flatMap_cons, Label.chars]
        simp
  rw [labelChars, Label.chars, printedChars_statements, hrest]
  simp

/-! ### What is read back -/

/-- After `n` line feeds, the line number is the largest one and grows no more. -/
def LinesFull (n : Nat) : Prop := 4294967295 ≤ 1 + n

/-- The kind of the lexeme with which an instruction begins in print. -/
def Instruction.firstKind : Instruction → TokenKind
  | choice .. => .number
  | code _ => .code
  | goto _ => .arrow
  | waitWhile _ => .waitWhile
  | _ => .word

/-- The kind of the lexeme with which a clause begins in print. -/
def Clause.firstKind : Clause → TokenKind
  | label _ => .colon
  | statement s => s.instruction.firstKind
  | skipped l | stray l => l.kind

namespace Statement

/-- What stands between the instruction and its first condition in print. -/
def gap (s : Statement) : List Char := if s.conditions = [] then [] else [' ']

/-- The code of the statement is told apart from its conditions: its brackets are spaced, and the
first condition does not begin with a space. -/
def KeepsCode (s : Statement) (spaced : Bool) (code : List Char) : Prop :=
  SpacedBrackets spaced (code ++ s.gap) ∧
    ∀ c, s.conditions.head? = some c → c.gate.text.toList.head? ≠ some ' '

/-- Printed after `n` line feeds, the statement ends with its instruction, and the clause behind it
begins with a lexeme of the given kind as though on the same line. -/
def RunsInto (s : Statement) (n : Nat) (next : Option Clause) (kind : TokenKind) : Prop :=
  s.conditions = [] ∧ LinesFull n ∧ next.map Clause.firstKind = some kind

/-- The statement, printed after `n` line feeds before the clause `next`, is read back. -/
def Reprintable (n : Nat) (next : Option Clause) (s : Statement) : Prop :=
  match s.instruction with
  | .choice _ text _ => '"' ∉ text.toList ∧ ('\n' ∈ text.toList → LinesFull n)
  | .pause seconds => seconds.isFinite = true
  | .code text => s.KeepsCode false text.toList
  | .waitWhile text => s.KeepsCode true text.toList
  | .shutUp => ¬s.RunsInto n next .colon
  | .dialog name | .override name | .waitFor name =>
    name = "" → ¬s.RunsInto n next .colon ∧ ¬s.RunsInto n next .word
  | _ => True

end Statement

/-- The clauses, printed after `n` line feeds, are read back. -/
def ClausesReprintable (layout : Layout) : Nat → List Clause → Prop
  | _, [] => True
  | n, .label _ :: cs =>
    ClausesReprintable layout (n + (if layout.blankLineBetweenLabels then 1 else 0) + 1) cs
  | n, .statement s :: cs =>
    s.Reprintable n cs.head? ∧
      ClausesReprintable layout (n + (s.chars layout).count '\n' + 1) cs
  | n, _ :: cs => ClausesReprintable layout n cs

/-- The script is read back when it is printed. The head of its first label takes the first line. -/
def Script.Reprintable (u : Script) (layout : Layout) : Prop :=
  ClausesReprintable layout 1 u.clauses.tail

end DialogScript
