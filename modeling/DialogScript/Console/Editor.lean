import DialogScript.Error
import DialogScript.Text.Blank
import DialogScript.Text.Grapheme
import DialogScript.Text.Numeral
import DialogScript.Text.Position

/-!
# Line editors

A line editor asks the user for a line. The one for piped input shows no prompt: it takes the lines
as they come, lets a backspace remove the sign before it, and refuses a line that is no answer to
the choices on offer. What is refused stays in front of the next line.

## Main definitions

* `LineEditor`, `Reply`: what an editor does, and what comes of asking
* `LineEditor.scripted`, `LineEditor.recorded`: an editor with given replies, and one that keeps a
  list of what it is asked to do
* `ChoiceAnswer`: what a line means as the answer to a number of choices
* `PipedInput`, `PipedInput.editor`: the editor for piped input
-/

namespace DialogScript

/-- What comes of asking for a line. -/
inductive Reply
  | line (text : String)
  | interrupted
  | endOfInput
  deriving DecidableEq, Repr

/-- A line editor with states `ε`. -/
structure LineEditor (ε : Type) where
  /-- Asks for a line after a prompt. -/
  read : String → ε → Except Error Reply × ε
  /-- Takes a line into the history. -/
  remember : String → ε → ε
  /-- Learns how many choices are on offer. -/
  expect : Nat → ε → ε

/-- Something that an editor is asked to do. -/
inductive EditorCall
  | read (prompt : String)
  | remember (line : String)
  | expect (count : Nat)
  deriving DecidableEq, Repr

namespace LineEditor

/-- An editor that keeps a list of what it is asked to do. -/
def recorded {ε : Type} (editor : LineEditor ε) : LineEditor (ε × Array EditorCall) where
  read prompt e :=
    let (reply, state) := editor.read prompt e.1
    (reply, state, e.2.push (.read prompt))
  remember line e := (editor.remember line e.1, e.2.push (.remember line))
  expect count e := (editor.expect count e.1, e.2.push (.expect count))

/-- An editor that answers with the replies of a list, and then with the end of input. -/
def scripted : LineEditor (List (Except Error Reply)) where
  read _ replies :=
    match replies with
    | [] => (.ok .endOfInput, [])
    | reply :: rest => (reply, rest)
  remember _ replies := replies
  expect _ replies := replies

end LineEditor

/-- What a line means as an answer. -/
inductive ChoiceAnswer
  /-- The user wants to leave. -/
  | quit
  /-- A choice by its number, and the line without blanks at its ends. -/
  | pick (choice : Nat) (text : String)
  /-- Nothing that answers. -/
  | unclear
  deriving DecidableEq, Repr

namespace ChoiceAnswer

/-- The line asks to leave. -/
def isQuit (line : List Char) : Bool := line = ['q'] || line = ['q', 'u', 'i', 't']

/-- The number of a choice among `count` that a line names. -/
def choice? (count : Nat) (line : List Char) : Option Nat :=
  (Numeral.unsigned? line).filter fun n => 1 ≤ n ∧ n ≤ count

/-- The meaning of a reply when `count` choices are on offer. -/
def ofReply (count : Nat) : Reply → ChoiceAnswer
  | .line text =>
    let line := trim text.toList
    if isQuit line then quit
    else
      match choice? count line with
      | some n => pick n (String.ofList line)
      | none => unclear
  | .interrupted => quit
  | .endOfInput => quit

end ChoiceAnswer

/-- Input that is not typed: what is left of it, the number of choices on offer, and the messages
about refused lines. -/
structure PipedInput where
  input : List Char
  count : Nat := 0
  messages : String := ""
  deriving Repr

namespace PipedInput

/-- The message about a line that is refused, if it is. Blank lines are not. -/
def refusal? (count : Nat) (line : List Char) : Option String :=
  let line := trim line
  if line = [] || ChoiceAnswer.isQuit line || (ChoiceAnswer.choice? count line).isSome then none
  else some s!"  pick a choice from 1 to {count}"

/-- A text whose backspaces are taking effect: its characters and the size of each sign in bytes,
both from the last one on. A size is kept in one byte, so from a sign of 256 bytes or more a
backspace takes away what remains of the size after division by 256. -/
structure Typed where
  shown : List Char := []
  sizes : List UInt8 := []
  deriving Repr

/-- Characters, the last one first, without the last ones that take `n` bytes. -/
def dropBytes : List Char → Nat → List Char
  | [], _ => []
  | c :: cs, 0 => c :: cs
  | c :: cs, n + 1 => dropBytes cs (n + 1 - c.utf8Size)

/-- What has been typed, with one more sign or after a backspace. -/
def Typed.push (t : Typed) (sign : List Char) : Typed :=
  if sign = [Char.ofNat 8] then
    match t.sizes with
    | [] => t
    | size :: sizes => ⟨dropBytes t.shown size.toNat, sizes⟩
  else ⟨sign.reverse ++ t.shown, UInt8.ofNat (utf8Length sign) :: t.sizes⟩

/-- A text after its backspaces have taken effect. A sign is a grapheme cluster of the text as it
was typed. -/
def erased (cs : List Char) : List Char :=
  ((clusters cs).foldl Typed.push {}).shown.reverse

/-- A text without the line feed at its end, nor a carriage return before that. -/
def withoutEnd (cs : List Char) : List Char :=
  match cs.reverse with
  | '\n' :: '\r' :: rest => rest.reverse
  | '\n' :: rest => rest.reverse
  | _ => cs

/-- The characters up to the first line feed, with it, and the rest. -/
def splitLine : List Char → List Char × List Char
  | [] => ([], [])
  | c :: cs => if c = '\n' then ([c], cs) else (c :: (splitLine cs).1, (splitLine cs).2)

/-- A line as it stands after what was refused before. -/
def joined (refused line : List Char) : List Char := erased (withoutEnd (refused ++ line))

/-- Takes lines off the input, at most `n`, up to one that is not refused. -/
def take : Nat → List Char → PipedInput → Reply × PipedInput
  | 0, _, p => (.endOfInput, p)
  | n + 1, refused, p =>
    if p.input = [] then (.endOfInput, p)
    else
      let (line, rest) := splitLine p.input
      let text := joined refused line
      let p := { p with input := rest }
      match refusal? p.count text with
      | none => (.line (String.ofList text), p)
      | some message => take n text { p with messages := p.messages ++ message }

/-- The editor for piped input. -/
def editor : LineEditor PipedInput where
  read _ p := let (reply, p) := take (p.input.length + 1) [] p; (.ok reply, p)
  remember _ p := p
  expect count p := { p with count }

end PipedInput

end DialogScript
