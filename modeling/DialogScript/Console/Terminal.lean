import DialogScript.Number.Duration
import DialogScript.Player.Session
import DialogScript.Text.Utf8

/-!
# The terminal as a host

A terminal prints what is said and keeps the pauses of a dialog. Code conditions all have one value.

## Main definitions

* `Terminal`: what has been printed, and the time
* `Terminal.host`: the terminal as a host of a player
* `Terminal.record?`: the record that a terminal makes of a call
-/

namespace DialogScript

/-- What has been printed, how many bytes there is room for, and the time in nanoseconds. -/
structure Terminal where
  printed : Array UInt8 := #[]
  capacity : Option Nat := none
  now : Nat := 0
  deriving Repr, Inhabited

/-- How a console treats a dialog. -/
structure ConsoleOptions where
  /-- The value of code in conditions. -/
  allowCode : Bool := true
  /-- The factor by which pauses are made longer. -/
  timeScale : Binary32 := (Binary32.read? ['1']).getD default
  deriving Repr

namespace Terminal

/-- Prints a text. The answer tells whether there was room for all of it; if not, as many bytes as
there was room for are printed. -/
def print (t : Terminal) (text : String) : Bool × Terminal :=
  let bytes := Utf8.toBytes text
  match t.capacity with
  | none => (true, { t with printed := t.printed ++ bytes })
  | some capacity =>
    let room := capacity - t.printed.size
    (bytes.length ≤ room, { t with printed := t.printed ++ bytes.take room })

/-- The text that has been printed. -/
def output (t : Terminal) : String := String.ofList (Utf8.decodeLossy t.printed.toList)

/-- The deadline of a delay that begins now. Only pauses last. -/
def deadline (options : ConsoleOptions) (t : Terminal) : Delay → Deadline
  | .pause seconds => .after t.now (seconds.times options.timeScale.clamped).nanoseconds
  | _ => .after t.now 0

/-- The terminal as a host: it prints what is said, whether or not there is room for it. -/
def host (options : ConsoleOptions) : Host Terminal Deadline where
  perform _ t := t
  begin d t :=
    match d with
    | .say actor text => (t.deadline options d, (t.print s!"{actor}: {text}\n").2)
    | _ => (t.deadline options d, t)
  poll d t := (d.isReady t.now, t)
  holds _ t := (options.allowCode, t)

/-- The record that a terminal makes of a call. -/
def record? : Call Deadline → Option Record
  | .effect (.allowObjects allow) => some ⟨.debug, s!"allow objects: {allow}"⟩
  | .effect (.handOver actor) => some ⟨.debug, s!"dialog handed to {actor}"⟩
  | .effect (.execute code) => some ⟨.info, s!"execute: {code}"⟩
  | .effect .shutUp => some ⟨.debug, "shutup"⟩
  | .effect (.goto label) => some ⟨.debug, s!"goto {label}"⟩
  | .delay (.waitFor actor) _ =>
    some ⟨.debug, "wait for " ++ String.ofList (Quoted.encode actor.toList)⟩
  | .delay (.waitWhile code) _ => some ⟨.debug, s!"wait while {code}"⟩
  | .code text holds => some ⟨.debug, s!"condition {text} -> {holds}"⟩
  | _ => none

/-- The records made during a session on a terminal. -/
def records (transcript : Array (Event Deadline)) : List Record :=
  transcript.toList.filterMap fun e =>
    match e with
    | .call c => record? c
    | e => e.record?

end Terminal

end DialogScript
