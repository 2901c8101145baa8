import DialogScript.Notice
import DialogScript.Player.Config
import DialogScript.Player.Host

/-!
# What happens in a session

A transcript lists, in order, the calls of the host, what the player remarks on, and what becomes of
the statements it comes to.

## Main definitions

* `Phase`: what a player is doing
* `Remark`: what a player remarks on, and `Remark.record`, the record of it
* `Event`: an item of a transcript
-/

namespace DialogScript

/-- What a player is doing. -/
inductive Phase
  /-- No dialog is running. -/
  | idle
  /-- A label has just been entered. -/
  | entered
  /-- Statements are being run. -/
  | running
  /-- Choices are offered. -/
  | choosing
  /-- What a statement began is not over. -/
  | waiting
  /-- The chosen text is being said. -/
  | echoing
  deriving DecidableEq, Repr, Inhabited

/-- The name of a phase in records. -/
def Phase.name : Phase → String
  | idle => "None"
  | entered => "Start"
  | running => "Running"
  | choosing => "WaitingForChoice"
  | waiting => "WaitingEndAnimation"
  | echoing => "WaitingForSayingChoice"

/-- What a player remarks on. -/
inductive Remark
  /-- Something left out while a dialog was read. -/
  | read (notice : Notice)
  | started (actor dialog label : String)
  | entered (label : String)
  | missing (label dialog : String)
  | ended (dialog : String)
  /-- A statement is run in a label. -/
  | ran (dialog instruction : String) (label : Option String)
  /-- A choice has a number that no place has. -/
  | outOfRange (dialog : String) (number : Int32)
  /-- A choice has the number of one that is offered. -/
  | taken (number : Int32)
  /-- A choice exceeds the number of choices offered at once. -/
  | overLimit (number : Int32) (limit : Nat)
  /-- An update has made all the jumps it may. -/
  | jumpsSpent (label : String)
  /-- A choice is picked while none are offered. -/
  | pickIgnored (choice : Nat) (phase : Phase)
  /-- A choice is picked that is not offered. -/
  | noSuchChoice (choice : Nat)
  deriving DecidableEq, Repr

namespace Remark

/-- The name of a label in a record, if there is one. -/
def labelText : Option String → String
  | none => "None"
  | some label => "Some(" ++ String.ofList (Quoted.encode label.toList) ++ ")"

/-- The record of a remark. -/
def record : Remark → Record
  | read notice => notice.record
  | started actor dialog label => ⟨.debug, s!"starting dialog {dialog} at {label} for {actor}"⟩
  | entered label => ⟨.debug, s!"entering label {label}"⟩
  | missing label dialog => ⟨.debug, s!"label {label} not found in {dialog}"⟩
  | ended dialog => ⟨.debug, s!"dialog {dialog} ended"⟩
  | ran dialog instruction label =>
    ⟨.trace, s!"{dialog}: running {instruction} in {labelText label}"⟩
  | outOfRange dialog number =>
    ⟨.warning, s!"{dialog}: dropping choice {number.toInt}, slots run from 1 to {maxChoices}"⟩
  | taken number => ⟨.debug, s!"choice slot {number.toInt} already filled"⟩
  | overLimit number limit =>
    ⟨.debug, s!"choice {number.toInt} over the limit of {limit}"⟩
  | jumpsSpent label => ⟨.debug, s!"jump budget spent, resuming {label} next update"⟩
  | pickIgnored choice phase =>
    ⟨.debug, s!"ignoring choice {choice} in state {phase.name}"⟩
  | noSuchChoice choice => ⟨.debug, s!"ignoring choice {choice}: no such choice"⟩

end Remark

/-- An item of a transcript. -/
inductive Event (ω : Type)
  /-- The host is called. -/
  | call (c : Call ω)
  | remark (r : Remark)
  /-- The conditions of a statement are asked, in a session of an actor and a dialog. -/
  | judged (actor dialog : String) (s : Statement) (accepted : Bool)
  /-- A statement is run, or a choice is picked, in a session of an actor and a dialog. -/
  | used (actor dialog : String) (s : Statement)
  deriving DecidableEq, Repr

/-- The call of a host that an event is. -/
def Event.call? {ω : Type} : Event ω → Option (Call ω)
  | call c => some c
  | _ => none

/-- The record of a remark that an event is. -/
def Event.record? {ω : Type} : Event ω → Option Record
  | remark r => some r.record
  | _ => none

end DialogScript
