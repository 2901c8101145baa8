import DialogScript.Console.Editor
import DialogScript.Console.Terminal

/-!
# Playing on a console

The console updates the player frame by frame until the dialog is over. Whenever choices are on
offer it prints them and asks for one; the user may also leave. All it needs is a host, a way to
print and a way to let time pass.

## Main definitions

* `Venue`: a host on which texts can be printed and time passes
* `Venue.frame`, `Venue.printMenu`: one frame, and the choices on offer
* `Console.Turn`, `Venue.turn`: where a console stands, and what it does there
* `Venue.play`: the whole dialog
* `Console.terminal`, `Console.play`: a terminal, and a dialog on it
-/

namespace DialogScript

/-- A host on which texts can be printed and time passes. -/
structure Venue (σ ω : Type) where
  host : Host σ ω
  /-- Prints a text. If it cannot be printed in full, the answer tells why. -/
  print : String → σ → Option String × σ
  /-- Lets the time between two frames pass. -/
  rest : σ → σ

namespace Console

/-- How a dialog on a console is over. -/
inductive Outcome
  /-- The dialog has reached its end. -/
  | finished
  /-- The user has left while choosing. -/
  | quit
  deriving DecidableEq, Repr

/-- Where a console stands. -/
inductive Turn
  /-- A frame or a menu is due. -/
  | due
  /-- An answer to a number of choices is awaited. -/
  | asking (count : Nat)
  /-- The dialog is over, or cannot go on. -/
  | over (result : Except Error Outcome)
  deriving Repr

/-- A line of a menu. -/
def menuLine (n : Nat) (text : String) : String := s!"  {n}. {text}\n"

/-- The lines of a menu, the choices numbered from `n`. -/
def menuLines (n : Nat) : List String → List String
  | [] => []
  | text :: texts => menuLine n text :: menuLines (n + 1) texts

/-- A menu that cannot be printed. -/
def menuError (reason : String) : Error := { kind := .io s!"failed to write choices: {reason}" }

/-- The prompt at which a choice is read. -/
def prompt : String := "> "

end Console

namespace Venue

open Console

variable {σ ω : Type} (v : Venue σ ω)

/-- One frame: an update, and a pause if the dialog still goes on without the user. -/
def frame (s : Scene σ ω) : Scene σ ω :=
  let s := s.update v.host
  if s.player.activity = .active then { s with host := v.rest s.host } else s

/-- Prints lines up to the first that cannot be printed. -/
def printLines (host : σ) : List String → Option Error × σ
  | [] => (none, host)
  | line :: lines =>
    match v.print line host with
    | (none, host) => printLines host lines
    | (some reason, host) => (some (menuError reason), host)

/-- Prints the choices on offer. -/
def printMenu (s : Scene σ ω) : Option Error × Scene σ ω :=
  let (error?, host) := v.printLines s.host (menuLines 1 s.player.choiceTexts)
  (error?, { s with host })

/-- What comes of a reply where a number of choices is on offer, and the line to remember. -/
def answer (count : Nat) (reply : Reply) (s : Scene σ ω) : Turn × Scene σ ω × Option String :=
  match ChoiceAnswer.ofReply count reply with
  | .quit => (.over (.ok .quit), s, none)
  | .unclear => (.asking count, s, none)
  | .pick choice text => (.due, s.choose v.host choice, some text)

/-- The next frame or menu. -/
def proceed (s : Scene σ ω) : Turn × Scene σ ω :=
  match s.player.activity with
  | .idle => (.over (.ok .finished), s)
  | .active => (.due, v.frame s)
  | .choosing =>
    match v.printMenu s with
    | (some error, s) => (.over (.error error), s)
    | (none, s) => (.asking s.player.choiceTexts.length, s)

variable {ε : Type} (editor : LineEditor ε)

/-- One turn of a console with an editor. -/
def turn (s : Scene σ ω) (e : ε) : Turn → Turn × Scene σ ω × ε
  | .over result => (.over result, s, e)
  | .due =>
    match v.proceed s with
    | (.asking count, s) => (.asking count, s, editor.expect count e)
    | (t, s) => (t, s, e)
  | .asking count =>
    match editor.read prompt e with
    | (.error error, e) => (.over (.error error), s, e)
    | (.ok reply, e) =>
      match v.answer count reply s with
      | (t, s, none) => (t, s, e)
      | (t, s, some line) => (t, s, editor.remember line e)

/-- Plays a dialog through at most a number of turns. Without a result, they did not suffice. -/
def play : (turns : Nat) → Turn → Scene σ ω → ε → Option (Except Error Outcome × Scene σ ω × ε)
  | _, .over result, s, e => some (result, s, e)
  | 0, _, _, _ => none
  | turns + 1, t, s, e =>
    let (t, s, e) := v.turn editor s e t
    play turns t s e

variable {v editor}

theorem play_due (turns : Nat) (s : Scene σ ω) (e : ε) :
    v.play editor (turns + 1) .due s e =
      let (t, s, e) := v.turn editor s e .due
      v.play editor turns t s e := rfl

theorem play_asking (turns count : Nat) (s : Scene σ ω) (e : ε) :
    v.play editor (turns + 1) (.asking count) s e =
      let (t, s, e) := v.turn editor s e (.asking count)
      v.play editor turns t s e := rfl

end Venue

namespace Console

/-- A player on a terminal. -/
abbrev Stage := Scene Terminal Deadline

/-- The time between two frames, in nanoseconds. -/
def frameTime : Nat := 16000000

/-- A terminal as a place to play. -/
def terminal (options : ConsoleOptions) : Venue Terminal Deadline where
  host := Terminal.host options
  print text t :=
    let (all, t) := t.print text
    (if all then none else some "full", t)
  rest t := { t with now := t.now + frameTime }

/-- Plays a dialog on a terminal. -/
def play {ε : Type} (options : ConsoleOptions) (editor : LineEditor ε) :
    (turns : Nat) → Turn → Stage → ε → Option (Except Error Outcome × Stage × ε) :=
  (terminal options).play editor

end Console

end DialogScript
