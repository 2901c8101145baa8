import DialogScript.Number.Shortest
import DialogScript.Script.Clause

/-!
# Printing a script

A script is printed with one clause a line, conditions behind their statement. Reading what is
printed is meant to give the script again, up to the lines of its conditions.

## Main definitions

* `Layout`: what may vary in print
* `Script.print`, `Statement.print`
-/

namespace DialogScript

/-- What may vary in print. -/
structure Layout where
  /-- An empty line stands between labels. -/
  blankLineBetweenLabels : Bool := false
  /-- A colon follows the number of a choice. -/
  choiceColon : Bool := false
  deriving DecidableEq, Repr, Inhabited

/-- The text is that of a text identifier: a dollar sign, and letters, digits and low lines. -/
def isTextId : List Char → Bool
  | '$' :: id => id ≠ [] && id.all Piece.isWordChar
  | _ => false

/-- The text of a choice as it is printed: bare if it is a text identifier, else in quotes. -/
def printedChoiceText (text : List Char) : List Char :=
  if isTextId text then text else '"' :: (text ++ ['"'])

namespace Keyword

/-- A keyword and its argument, if there is one. -/
def applied (k : Keyword) (argument : List Char) : List Char :=
  if argument = [] then k.word else k.word ++ ' ' :: argument

end Keyword

/-- The printed form of an instruction. -/
def Instruction.chars (layout : Layout) : Instruction → List Char
  | say actor text => actor.toList ++ ':' :: ' ' :: '"' :: (text.toList ++ ['"'])
  | choice number text target =>
    Numeral.ofInt32 number ++ (if layout.choiceColon then [':'] else []) ++
      ' ' :: (printedChoiceText text.toList ++ ' ' :: '-' :: '>' :: ' ' :: target.toList)
  | code text => '!' :: text.toList
  | goto label => '-' :: '>' :: ' ' :: label.toList
  | pause seconds => Keyword.pause.applied seconds.text
  | parrot active => Keyword.parrot.applied (if active then ['y', 'e', 's'] else ['n', 'o'])
  | dialog actor => Keyword.dialog.applied actor.toList
  | override label => Keyword.override.applied label.toList
  | shutUp => Keyword.shutUp.word
  | allowObjects allow =>
    Keyword.allowObjects.applied (if allow then ['Y', 'E', 'S'] else ['N', 'O'])
  | waitWhile text => Piece.waitWhileWord ++ ' ' :: text.toList
  | waitFor actor => Keyword.waitFor.applied actor.toList
  | limit max => Keyword.limit.applied (Numeral.ofInt32 max)

/-- The printed form of a condition. -/
def Condition.chars (c : Condition) : List Char := '[' :: (c.gate.text.toList ++ [']'])

/-- The printed form of a statement, without a line feed. -/
def Statement.chars (layout : Layout) (s : Statement) : List Char :=
  s.instruction.chars layout ++ s.conditions.flatMap fun c => ' ' :: c.chars

/-- The printed form of a label. -/
def Label.chars (layout : Layout) (l : Label) : List Char :=
  ':' :: (l.name.toList ++ '\n' :: l.statements.flatMap fun s => s.chars layout ++ ['\n'])

/-- The printed form of labels in order. -/
def labelChars (layout : Layout) : List Label → List Char
  | [] => []
  | l :: ls =>
    l.chars layout ++ ls.flatMap fun next =>
      (if layout.blankLineBetweenLabels then ['\n'] else []) ++ next.chars layout

/-- The printed form of a statement. -/
def Statement.print (s : Statement) : String := String.ofList (s.chars {})

/-- The printed form of a script. -/
def Script.print (s : Script) (layout : Layout := {}) : String :=
  String.ofList (labelChars layout s.labels)

end DialogScript
