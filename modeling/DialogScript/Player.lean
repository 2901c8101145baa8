import DialogScript.Library
import DialogScript.Player.Event

/-!
# Players

A player plays one dialog at a time: it holds the script, its place in it, the choices on offer and
the condition log. A scene is a player with its host and the transcript of what has happened.

## Main definitions

* `Player`, `Player.new`, and what a player shows: `Player.activity`, `Player.choices`,
  `Player.choiceTexts`, `Player.currentLabel?`
* `Scene`: a player, the state of its host and a transcript
-/

namespace DialogScript

/-- The places for choices: each holds the index of a statement of the current label, or nothing. -/
abbrev Slots := Vector (Option Nat) maxChoices

/-- The places without choices. -/
def Slots.empty : Slots := Vector.replicate maxChoices none

/-- A player whose host names what it waits for by handles `ω`. -/
structure Player (ω : Type) where
  loader : Loader
  config : Config := {}
  log : Log := {}
  script : Script := {}
  actor : String := ""
  dialog : String := ""
  /-- The place of the current label in the script. -/
  label : Option Nat := none
  /-- The place of the current statement in the label. -/
  cursor : Nat := 0
  slots : Slots := .empty
  phase : Phase := .idle
  wait : Option ω := none
  /-- The label to go to when the chosen text has been said. -/
  destination : String := ""
  parrot : Bool := config.parrot
  limit : Nat := config.limit
  override : String := ""

/-- What a player is doing, in outline. -/
inductive Activity
  /-- No dialog is running. -/
  | idle
  /-- A dialog is running or waiting for the host. -/
  | active
  /-- Choices are offered. -/
  | choosing
  deriving DecidableEq, Repr

/-- The outline of a phase. -/
def Phase.activity : Phase → Activity
  | idle => .idle
  | choosing => .choosing
  | _ => .active

namespace Player

variable {ω : Type}

/-- A player without a dialog. -/
def new (loader : Loader) : Player ω := { loader }

/-- The player with another loader. -/
def withLoader (p : Player ω) (loader : Loader) : Player ω := { p with loader }

/-- The player with another configuration and what it says of the current session. -/
def withConfig (p : Player ω) (config : Config) : Player ω :=
  { p with config, parrot := config.parrot, limit := config.limit }

/-- The player with another condition log. -/
def withLog (p : Player ω) (log : Log) : Player ω := { p with log }

/-- What the player is doing, in outline. -/
def activity (p : Player ω) : Activity := p.phase.activity

/-- The site of a line in the current session. -/
def site (p : Player ω) (line : UInt32) : Site := ⟨p.actor, p.dialog, line⟩

/-- The current label. -/
def label? (p : Player ω) : Option Label := p.label.bind fun i => p.script.labels[i]?

/-- The name of the current label. -/
def currentLabel? (p : Player ω) : Option String := p.label?.map (·.name)

/-- The statement at a place in the current label. -/
def statement? (p : Player ω) (i : Nat) : Option Statement :=
  p.label?.bind fun l => l.statements[i]?

/-- The places of the statements on offer, in the order of their numbers. -/
def offered (p : Player ω) : List Nat := p.slots.toList.filterMap id

/-- Choices are on offer. -/
def hasChoices (p : Player ω) : Bool := p.slots.toList.any Option.isSome

/-- The choices in their places. -/
def choices (p : Player ω) : List (Option Statement) :=
  p.slots.toList.map fun slot => slot.bind p.statement?

/-- The texts of the choices on offer, in the order of their numbers. -/
def choiceTexts (p : Player ω) : List String :=
  p.choices.filterMap fun slot => (slot.bind Statement.choice?).map fun c => c.2.1

end Player

/-- A player with the state of its host and what has happened so far. -/
structure Scene (σ ω : Type) where
  player : Player ω
  host : σ
  transcript : Array (Event ω) := #[]

namespace Scene

variable {σ ω : Type}

/-- The scene after an event. -/
def note (s : Scene σ ω) (e : Event ω) : Scene σ ω :=
  { s with transcript := s.transcript.push e }

/-- The scene after a remark. -/
def remark (s : Scene σ ω) (r : Remark) : Scene σ ω := s.note (.remark r)

/-- The calls of the host, in order. -/
def calls (s : Scene σ ω) : List (Call ω) := s.transcript.toList.filterMap Event.call?

end Scene

end DialogScript
