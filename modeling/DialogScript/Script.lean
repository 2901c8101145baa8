import DialogScript.Number.Binary32

/-!
# Scripts

A script is what a dialog file says: labels in order, each with the statements that run when it is
entered. A statement is an instruction under conditions.

## Main definitions

* `Scope`, `Gate`, `Condition`: what a statement depends on
* `Instruction`, `Statement`, `Label`, `Script`
* `Script.findLabel?`: the label that a name stands for
* `Script.alike`: equality of scripts with numbers compared by value
-/

namespace DialogScript

/-- How often a statement may be used, and what using it means. -/
inductive Scope
  /-- Until it is run or chosen. -/
  | once
  /-- Until it is shown. -/
  | showOnce
  /-- Until it is run or chosen by any actor. -/
  | onceEver
  /-- Until it is shown, anew in each session. -/
  | tempOnce
  deriving DecidableEq, Repr, Inhabited

/-- What a condition asks. -/
inductive Gate
  /-- Code that the host evaluates. -/
  | code (text : String)
  /-- Whether the scope of the statement still admits it. -/
  | scope (s : Scope)
  deriving DecidableEq, Repr

/-- A condition and the source line on which it stands. -/
structure Condition where
  gate : Gate
  line : UInt32
  deriving DecidableEq, Repr

/-- What a statement does. -/
inductive Instruction
  /-- An actor says a text. -/
  | say (actor text : String)
  /-- Offers a text under a number; picking it leads to a label. -/
  | choice (number : Int32) (text target : String)
  /-- Hands code to the host. -/
  | code (text : String)
  /-- Goes on at a label. -/
  | goto (label : String)
  /-- Waits for some seconds. -/
  | pause (seconds : Binary32)
  /-- Sets whether chosen texts are said. -/
  | parrot (active : Bool)
  /-- Hands the dialog over to an actor. -/
  | dialog (actor : String)
  /-- Names the label to use when the dialog is interrupted. -/
  | override (label : String)
  /-- Stops all speech. -/
  | shutUp
  /-- Sets whether objects may be used during the dialog. -/
  | allowObjects (allow : Bool)
  /-- Waits as long as code holds. -/
  | waitWhile (code : String)
  /-- Waits for an actor; no name means the host's choice. -/
  | waitFor (actor : String)
  /-- Sets how many choices are offered at once. -/
  | limit (max : Int32)
  deriving DecidableEq, Repr

/-- An instruction under conditions, all of which must hold. -/
structure Statement where
  instruction : Instruction
  conditions : List Condition := []
  deriving DecidableEq, Repr

/-- A named sequence of statements. -/
structure Label where
  name : String
  statements : List Statement := []
  deriving DecidableEq, Repr

/-- The labels of a dialog, in order. Names may repeat. -/
structure Script where
  labels : List Label := []
  deriving DecidableEq, Repr, Inhabited

/-- The word that stands for a scope. -/
def Scope.word : Scope → String
  | once => "once"
  | showOnce => "showonce"
  | onceEver => "onceever"
  | tempOnce => "temponce"

namespace Gate

/-- The gate that a text between brackets stands for: a scope if it is the word of one. -/
def ofText (text : String) : Gate :=
  if text = "once" then .scope .once
  else if text = "showonce" then .scope .showOnce
  else if text = "onceever" then .scope .onceEver
  else if text = "temponce" then .scope .tempOnce
  else .code text

/-- The text of a gate between its brackets. -/
def text : Gate → String
  | code t => t
  | scope s => s.word

end Gate

/-- The word of an instruction, or the name of its form. -/
def Instruction.name : Instruction → String
  | say .. => "say"
  | choice .. => "choice"
  | code .. => "code"
  | goto .. => "goto"
  | pause .. => "pause"
  | parrot .. => "parrot"
  | dialog .. => "dialog"
  | override .. => "override"
  | shutUp => "shutup"
  | allowObjects .. => "allowobjects"
  | waitWhile .. => "waitwhile"
  | waitFor .. => "waitfor"
  | limit .. => "limit"

/-- The number, text and target of a choice. -/
def Statement.choice? (s : Statement) : Option (Int32 × String × String) :=
  match s.instruction with
  | .choice number text target => some (number, text, target)
  | _ => none

/-- The place of the last element that satisfies `p`. -/
def lastIndex? {α : Type} (p : α → Bool) : List α → Option Nat
  | [] => none
  | x :: xs =>
    match lastIndex? p xs with
    | some i => some (i + 1)
    | none => if p x then some 0 else none

/-- The place of the label that a name stands for: the last label of that name. -/
def Script.findLabel? (s : Script) (name : String) : Option Nat :=
  lastIndex? (·.name = name) s.labels

/-- Instructions are alike if they are equal, durations compared by value. -/
def Instruction.alike : Instruction → Instruction → Bool
  | .pause a, .pause b => a.equals b
  | a, b => a = b

/-- Statements are alike if their instructions are and their conditions are equal. -/
def Statement.alike (a b : Statement) : Bool :=
  a.instruction.alike b.instruction && a.conditions = b.conditions

/-- Labels are alike if their names are equal and their statements alike, one by one. -/
def Label.alike (a b : Label) : Bool :=
  a.name = b.name && a.statements.isEqv b.statements Statement.alike

/-- Scripts are alike if their labels are, one by one. -/
def Script.alike (a b : Script) : Bool := a.labels.isEqv b.labels Label.alike

end DialogScript
