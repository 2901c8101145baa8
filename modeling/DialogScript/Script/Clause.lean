import DialogScript.Script
import DialogScript.Text.Blank
import DialogScript.Token.Scan

/-!
# Clauses

The lexemes of a source that carry meaning fall into clauses: the head of a label, a statement,
a lexeme that begins no statement, and, before the first label, a stray line. What belongs to one
statement stands on one line, save the conditions behind it. A clause takes at least one lexeme,
and a fault in one ends the reading.

## Main definitions

* `Keyword`: the words that begin an instruction
* `Fault`, `Failure`: what can be wrong, and where it came to light
* `Clause.read`: reads the clause that begins with a lexeme
* `Clause.all`: reads all clauses

## Main results

* `Clause.length_le_of_read`: a clause leaves no more lexemes than there were after its first
* `Clause.all_cons`: the clauses are the first clause and the clauses of the rest
-/

namespace DialogScript

/-- The words that begin an instruction, `waitwhile` apart, which is a token of its own kind. -/
inductive Keyword
  | shutUp
  | pause
  | waitFor
  | parrot
  | dialog
  | override
  | allowObjects
  | limit
  deriving DecidableEq, Repr

namespace Keyword

/-- The word itself. -/
def word : Keyword → List Char
  | shutUp => ['s', 'h', 'u', 't', 'u', 'p']
  | pause => ['p', 'a', 'u', 's', 'e']
  | waitFor => ['w', 'a', 'i', 't', 'f', 'o', 'r']
  | parrot => ['p', 'a', 'r', 'r', 'o', 't']
  | dialog => ['d', 'i', 'a', 'l', 'o', 'g']
  | override => ['o', 'v', 'e', 'r', 'r', 'i', 'd', 'e']
  | allowObjects => ['a', 'l', 'l', 'o', 'w', 'o', 'b', 'j', 'e', 'c', 't', 's']
  | limit => ['l', 'i', 'm', 'i', 't']

/-- All keywords. -/
def all : List Keyword :=
  [shutUp, pause, waitFor, parrot, dialog, override, allowObjects, limit]

/-- The keyword that a word is, if it is one. -/
def ofWord? (w : List Char) : Option Keyword := all.find? (·.word = w)

/-- A keyword is read back from its word. -/
theorem ofWord?_word (k : Keyword) : ofWord? k.word = some k := by
  cases k <;> decide

/-- Only the word of a keyword is read as that keyword. -/
theorem word_of_ofWord? {w : List Char} {k : Keyword} (h : ofWord? w = some k) : k.word = w := by
  simpa using List.find?_some h

end Keyword

/-- What a clause can miss. -/
inductive Expectation
  /-- A name after the colon of a label. -/
  | labelName
  /-- A text after the colon of an actor. -/
  | sayText
  /-- A number of seconds to wait. -/
  | duration
  /-- A number of choices. -/
  | limit
  /-- A choice number that fits in 32 bits. -/
  | choiceNumber
  /-- The text of a choice. -/
  | choiceText
  /-- The arrow to a label. -/
  | arrow
  /-- The label behind an arrow. -/
  | target
  deriving DecidableEq, Repr

/-- How a missed expectation is told to the user. -/
def Expectation.message : Expectation → String
  | labelName => "expected label name after ':'"
  | sayText => "expected text after ':'"
  | duration => "expected duration after 'pause'"
  | limit => "expected number after 'limit'"
  | choiceNumber => "invalid choice number"
  | choiceText => "expected choice text"
  | arrow => "expected '->'"
  | target => "expected label name after '->'"

/-- What is wrong with a source. -/
inductive Fault
  /-- An expectation that the lexeme `anchor` raised is not met. -/
  | unmet (expectation : Expectation) (anchor : Lexeme)
  /-- A word in the place of an instruction that is no keyword. -/
  | unknownWord (word : Lexeme)
  deriving DecidableEq, Repr

/-- A fault and the lexemes, from the first one looked at in vain. -/
structure Failure where
  fault : Fault
  found : List Lexeme
  deriving DecidableEq, Repr

/-- A clause of a source. -/
inductive Clause
  /-- The head of a label. -/
  | label (name : String)
  | statement (s : Statement)
  /-- A lexeme that begins no statement. -/
  | skipped (l : Lexeme)
  /-- A line before the first label, by its first lexeme. -/
  | stray (l : Lexeme)
  deriving DecidableEq, Repr

/-- The text without one given character at either end. -/
def stripped (opening closing : Char) (cs : List Char) : List Char :=
  let inner := if cs.head? = some opening then cs.tail else cs
  if inner.getLast? = some closing then inner.dropLast else inner

/-- The text of a string lexeme without its quotes. -/
def Lexeme.unquoted (l : Lexeme) : String := String.ofList (stripped '"' '"' l.text)

/-- The text of a lexeme. -/
def Lexeme.string (l : Lexeme) : String := String.ofList l.text

/-- The condition that a lexeme between brackets stands for. -/
def Condition.ofLexeme (l : Lexeme) : Condition :=
  ⟨Gate.ofText (String.ofList (stripped '[' ']' l.text)), l.line⟩

namespace Clause

/-- Reads a lexeme of the given kind on the line of `anchor`. -/
def expect (kind : TokenKind) (e : Expectation) (anchor : Lexeme) :
    List Lexeme → Except Failure (Lexeme × List Lexeme)
  | [] => .error ⟨.unmet e anchor, []⟩
  | l :: ls =>
    if l.kind = kind ∧ l.line = anchor.line then .ok (l, ls)
    else .error ⟨.unmet e anchor, l :: ls⟩

/-- Reads an arrow and a label on the line of `anchor`. -/
def target (anchor : Lexeme) (ls : List Lexeme) : Except Failure (String × List Lexeme) := do
  let (_, ls) ← expect .arrow .arrow anchor ls
  let (name, ls) ← expect .word .target anchor ls
  return (name.string, ls)

/-- Reads a word on the line of a keyword, if one follows. -/
def argument (keyword : Lexeme) : List Lexeme → Option String × List Lexeme
  | [] => (none, [])
  | l :: ls =>
    if l.kind = .word ∧ l.line = keyword.line then (some l.string, ls) else (none, l :: ls)

/-- Reads a number on the line of a keyword. -/
def numeral {α : Type} (read? : List Char → Option α) (e : Expectation) (keyword : Lexeme)
    (ls : List Lexeme) : Except Failure (α × List Lexeme) := do
  let (l, rest) ← expect .number e keyword ls
  match read? l.text with
  | some x => return (x, rest)
  | none => throw ⟨.unmet e l, l :: rest⟩

/-- Reads the instruction that begins with the lexeme `w` of a keyword. -/
def keyword (k : Keyword) (w : Lexeme) (ls : List Lexeme) :
    Except Failure (Instruction × List Lexeme) :=
  let (word?, rest) := argument w ls
  let name := word?.getD ""
  match k with
  | .shutUp => return (.shutUp, ls)
  | .pause => do
    let (seconds, ls) ← numeral Binary32.read? .duration w ls
    return (.pause seconds, ls)
  | .limit => do
    let (max, ls) ← numeral Numeral.int32? .limit w ls
    return (.limit max, ls)
  | .waitFor => return (.waitFor name, rest)
  | .dialog => return (.dialog name, rest)
  | .override => return (.override name, rest)
  | .parrot => return (.parrot (word?.all (· = "yes")), rest)
  | .allowObjects => return (.allowObjects (word?.all (· = "YES")), rest)

/-- Reads what an actor says, or else an instruction, that begins with the word `w`. The colon
after an actor stands on the line of the actor, and the text on the line of the colon. -/
def word (w : Lexeme) (ls : List Lexeme) : Except Failure (Instruction × List Lexeme) :=
  match ls with
  | colon :: rest =>
    if colon.kind = .colon ∧ colon.line = w.line then do
      let (text, rest) ← expect .string .sayText colon rest
      return (.say w.string text.unquoted, rest)
    else command
  | [] => command
where
  /-- Reads an instruction that begins with the keyword `w`. -/
  command : Except Failure (Instruction × List Lexeme) :=
    match Keyword.ofWord? w.text with
    | some k => keyword k w ls
    | none => .error ⟨.unknownWord w, ls⟩

/-- Passes over a colon on the line of the number of a choice. -/
def passColon (number : Lexeme) : List Lexeme → List Lexeme
  | [] => []
  | l :: ls => if l.kind = .colon ∧ l.line = number.line then ls else l :: ls

/-- Reads the text of a choice: a string without its quotes, or a text identifier. -/
def choiceText (number : Lexeme) : List Lexeme → Except Failure (String × List Lexeme)
  | [] => .error ⟨.unmet .choiceText number, []⟩
  | l :: ls =>
    if l.line = number.line ∧ l.kind = .string then .ok (l.unquoted, ls)
    else if l.line = number.line ∧ l.kind = .textId then .ok (l.string, ls)
    else .error ⟨.unmet .choiceText number, l :: ls⟩

/-- Reads the choice that begins with a number. -/
def choice (number : Lexeme) (ls : List Lexeme) : Except Failure (Instruction × List Lexeme) :=
  match Numeral.int32? number.text with
  | none => .error ⟨.unmet .choiceNumber number, number :: ls⟩
  | some n => do
    let (text, ls) ← choiceText number (passColon number ls)
    let (name, ls) ← target number ls
    return (.choice n text name, ls)

/-- Reads the instruction that begins with a lexeme, if one does. -/
def instruction? (l : Lexeme) (ls : List Lexeme) :
    Option (Except Failure (Instruction × List Lexeme)) :=
  match l.kind with
  | .word => some (word l ls)
  | .number => some (choice l ls)
  | .arrow => some do
    let (name, ls) ← target l (l :: ls)
    return (.goto name, ls)
  | .code => some (.ok (.code (String.ofList (trimEnd (l.text.drop 1))), ls))
  | .waitWhile =>
    some (.ok (.waitWhile (String.ofList (trim (l.text.drop Piece.waitWhileWord.length))), ls))
  | _ => none

/-- Reads the conditions behind an instruction. -/
def conditions (ls : List Lexeme) : List Condition × List Lexeme :=
  ((ls.takeWhile (·.kind = .condition)).map Condition.ofLexeme,
    ls.dropWhile (·.kind = .condition))

/-- Reads the clause that begins with a lexeme, inside a label. -/
def inner (l : Lexeme) (ls : List Lexeme) : Except Failure (Clause × List Lexeme) :=
  match instruction? l ls with
  | none => .ok (.skipped l, ls)
  | some reading => do
    let (instruction, ls) ← reading
    return (.statement ⟨instruction, (conditions ls).1⟩, (conditions ls).2)

/-- Reads the head of the label that begins with a colon. -/
def head (colon : Lexeme) (ls : List Lexeme) : Except Failure (Clause × List Lexeme) := do
  let (name, ls) ← expect .word .labelName colon ls
  return (.label name.string, ls)

/-- Passes over a stray line, by its first lexeme. -/
def strayLine (l : Lexeme) (ls : List Lexeme) : Except Failure (Clause × List Lexeme) :=
  .ok (.stray l, ls.dropWhile (·.line = l.line))

/-- Reads the clause that begins with a lexeme. Before the first label, `opened` is false: there, a
line that does not begin with a colon and a name is passed over. -/
def read (opened : Bool) (l : Lexeme) (ls : List Lexeme) : Except Failure (Clause × List Lexeme) :=
  match opened, decide (l.kind = .colon) with
  | true, true => head l ls
  | true, false => inner l ls
  | false, true =>
    match head l ls with
    | .ok result => .ok result
    | .error _ => strayLine l ls
  | false, false => strayLine l ls

/-- The clause is the head of a label. -/
def isLabel : Clause → Bool
  | label _ => true
  | _ => false

/-- At most `n` clauses from the front of a list of lexemes. -/
def take : Nat → Bool → List Lexeme → Except Failure (List Clause)
  | 0, _, _ => .ok []
  | _ + 1, _, [] => .ok []
  | n + 1, opened, l :: ls => do
    let (clause, rest) ← read opened l ls
    let clauses ← take n (opened || clause.isLabel) rest
    return clause :: clauses

/-- All clauses of a list of lexemes. There are no more clauses than lexemes. -/
def all (opened : Bool) (ls : List Lexeme) : Except Failure (List Clause) :=
  take ls.length opened ls

/-! ### A clause takes at least one lexeme -/

/-- A sequence of two steps gives a result only if both steps do. -/
theorem ok_of_bind {ε α β : Type} {x : Except ε α} {f : α → Except ε β} {b : β}
    (h : x >>= f = .ok b) : ∃ a, x = .ok a ∧ f a = .ok b := by
  cases x with
  | error _ => simp [bind, Except.bind] at h
  | ok a => exact ⟨a, rfl, h⟩

section Length

variable {l : Lexeme} {ls rest : List Lexeme}

theorem length_lt_of_expect {kind : TokenKind} {e : Expectation} {anchor : Lexeme}
    (h : expect kind e anchor ls = .ok (l, rest)) : rest.length < ls.length := by
  cases ls with
  | nil => simp [expect] at h
  | cons m ms =>
    rw [expect] at h
    split at h <;> simp at h
    simp [← h.2]

theorem length_lt_of_target {anchor : Lexeme} {name : String}
    (h : target anchor ls = .ok (name, rest)) : rest.length < ls.length := by
  obtain ⟨⟨_, afterArrow⟩, arrow, h⟩ := ok_of_bind h
  obtain ⟨⟨_, afterName⟩, word, h⟩ := ok_of_bind h
  obtain ⟨-, rfl⟩ : _ ∧ afterName = rest := by simpa [pure, Except.pure] using h
  exact Nat.lt_trans (length_lt_of_expect word) (length_lt_of_expect arrow)

theorem length_le_argument (w : Lexeme) (ls : List Lexeme) :
    (argument w ls).2.length ≤ ls.length := by
  cases ls with
  | nil => simp [argument]
  | cons m ms =>
    rw [argument]
    split <;> simp

theorem length_lt_of_numeral {α : Type} {read? : List Char → Option α} {e : Expectation}
    {x : α} (h : numeral read? e l ls = .ok (x, rest)) : rest.length < ls.length := by
  obtain ⟨⟨m, after⟩, number, h⟩ := ok_of_bind h
  dsimp only at h
  split at h
  · obtain ⟨-, rfl⟩ : _ ∧ after = rest := by simpa [pure, Except.pure] using h
    exact length_lt_of_expect number
  · simp [throw, throwThe, MonadExceptOf.throw] at h

theorem length_le_of_keyword {k : Keyword} {i : Instruction}
    (h : keyword k l ls = .ok (i, rest)) : rest.length ≤ ls.length := by
  have argument_le := length_le_argument l ls
  cases k
  case pause =>
    obtain ⟨⟨_, after⟩, number, h⟩ := ok_of_bind h
    obtain ⟨-, rfl⟩ : _ ∧ after = rest := by simpa [pure, Except.pure] using h
    exact Nat.le_of_lt (length_lt_of_numeral number)
  case limit =>
    obtain ⟨⟨_, after⟩, number, h⟩ := ok_of_bind h
    obtain ⟨-, rfl⟩ : _ ∧ after = rest := by simpa [pure, Except.pure] using h
    exact Nat.le_of_lt (length_lt_of_numeral number)
  case shutUp =>
    obtain ⟨-, rfl⟩ : _ ∧ ls = rest := by simpa [keyword, pure, Except.pure] using h
    exact Nat.le_refl _
  all_goals
    obtain ⟨-, rfl⟩ : _ ∧ (argument l ls).2 = rest := by
      simpa [keyword, pure, Except.pure] using h
    exact argument_le

theorem length_le_of_command {i : Instruction} (h : word.command l ls = .ok (i, rest)) :
    rest.length ≤ ls.length := by
  rw [word.command] at h
  split at h
  · exact length_le_of_keyword h
  · simp at h

theorem length_le_of_word {i : Instruction} (h : word l ls = .ok (i, rest)) :
    rest.length ≤ ls.length := by
  rw [word.eq_def] at h
  split at h
  · split at h
    · obtain ⟨⟨_, after⟩, text, h⟩ := ok_of_bind h
      obtain ⟨-, rfl⟩ : _ ∧ after = rest := by simpa [pure, Except.pure] using h
      exact Nat.le_succ_of_le (Nat.le_of_lt (length_lt_of_expect text))
    · exact length_le_of_command h
  · exact length_le_of_command h

theorem length_le_passColon (number : Lexeme) (ls : List Lexeme) :
    (passColon number ls).length ≤ ls.length := by
  cases ls with
  | nil => simp [passColon]
  | cons m ms =>
    rw [passColon]
    split <;> simp

theorem length_lt_of_choiceText {text : String} (h : choiceText l ls = .ok (text, rest)) :
    rest.length < ls.length := by
  cases ls with
  | nil => simp [choiceText] at h
  | cons m ms =>
    rw [choiceText] at h
    split at h
    · simp at h
      simp [← h.2]
    · split at h <;> simp at h
      simp [← h.2]

theorem length_le_of_choice {i : Instruction} (h : choice l ls = .ok (i, rest)) :
    rest.length ≤ ls.length := by
  rw [choice] at h
  split at h
  · simp at h
  · obtain ⟨⟨_, afterText⟩, text, h⟩ := ok_of_bind h
    obtain ⟨⟨_, after⟩, name, h⟩ := ok_of_bind h
    obtain ⟨-, rfl⟩ : _ ∧ after = rest := by simpa [pure, Except.pure] using h
    have := length_lt_of_target name
    have := length_lt_of_choiceText text
    have := length_le_passColon l ls
    omega

theorem length_le_of_instruction? {i : Instruction}
    (h : instruction? l ls = some (.ok (i, rest))) : rest.length ≤ ls.length := by
  rw [instruction?] at h
  split at h
  · exact length_le_of_word (Option.some.inj h)
  · exact length_le_of_choice (Option.some.inj h)
  · obtain ⟨⟨_, after⟩, name, h⟩ := ok_of_bind (Option.some.inj h)
    obtain ⟨-, rfl⟩ : _ ∧ after = rest := by simpa [pure, Except.pure] using h
    exact Nat.le_of_lt_succ (length_lt_of_target name)
  · simp at h
    simp [← h.2]
  · simp at h
    simp [← h.2]
  · simp at h

private theorem length_dropWhile_le (p : Lexeme → Bool) (ls : List Lexeme) :
    (ls.dropWhile p).length ≤ ls.length :=
  (List.dropWhile_sublist p).length_le

theorem length_le_of_head {c : Clause} (h : head l ls = .ok (c, rest)) :
    rest.length ≤ ls.length := by
  obtain ⟨⟨_, after⟩, name, h⟩ := ok_of_bind h
  obtain ⟨-, rfl⟩ : _ ∧ after = rest := by simpa [pure, Except.pure] using h
  exact Nat.le_of_lt (length_lt_of_expect name)

theorem length_le_of_inner {c : Clause} (h : inner l ls = .ok (c, rest)) :
    rest.length ≤ ls.length := by
  rw [inner] at h
  split at h
  · simp at h
    simp [← h.2]
  · rename_i reading found
    obtain ⟨⟨_, after⟩, rfl, result⟩ := ok_of_bind h
    obtain ⟨-, rfl⟩ : _ ∧ (conditions after).2 = rest := by
      simpa [pure, Except.pure] using result
    exact Nat.le_trans (length_dropWhile_le _ _) (length_le_of_instruction? found)

/-- A clause leaves no more lexemes than there were after its first. -/
theorem length_le_of_read {opened : Bool} {c : Clause} (h : read opened l ls = .ok (c, rest)) :
    rest.length ≤ ls.length := by
  have stray (h : strayLine l ls = .ok (c, rest)) : rest.length ≤ ls.length := by
    simp only [strayLine, Except.ok.injEq, Prod.mk.injEq] at h
    rw [← h.2]
    exact length_dropWhile_le _ _
  unfold read at h
  split at h
  · exact length_le_of_head h
  · exact length_le_of_inner h
  · split at h
    · rename_i result found
      exact length_le_of_head (found.trans h)
    · exact stray h
  · exact stray h

end Length

theorem take_eq {n m : Nat} {opened : Bool} {ls : List Lexeme} (hn : ls.length ≤ n)
    (hm : ls.length ≤ m) : take n opened ls = take m opened ls := by
  induction n generalizing m opened ls with
  | zero =>
    obtain rfl : ls = [] := List.eq_nil_of_length_eq_zero (by omega)
    cases m <;> rfl
  | succ n ih =>
    cases ls with
    | nil => cases m <;> rfl
    | cons l ls =>
      cases m with
      | zero => simp at hm
      | succ m =>
        rw [take, take]
        cases h : read opened l ls with
        | error _ => rfl
        | ok result =>
          obtain ⟨clause, rest⟩ := result
          have := length_le_of_read h
          simp only [List.length_cons] at hn hm
          simp only [bind, Except.bind]
          rw [ih (m := m) (by omega) (by omega)]

theorem all_nil (opened : Bool) : all opened [] = .ok [] := rfl

/-- The clauses are the first clause and the clauses of the rest. -/
theorem all_cons (opened : Bool) (l : Lexeme) (ls : List Lexeme) :
    all opened (l :: ls) = (do
      let (clause, rest) ← read opened l ls
      let clauses ← all (opened || clause.isLabel) rest
      return clause :: clauses) := by
  rw [all, List.length_cons, take]
  cases h : read opened l ls with
  | error _ => rfl
  | ok result =>
    obtain ⟨clause, rest⟩ := result
    simp only [bind, Except.bind]
    rw [all, take_eq (length_le_of_read h) (Nat.le_refl _)]

end Clause

end DialogScript
