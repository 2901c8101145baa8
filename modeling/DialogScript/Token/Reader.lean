import DialogScript.Token.Scan

/-!
# Reading token by token

A reader hands out the tokens of a source one at a time and can start over. It keeps an index of the
line starts that it has passed; the line of an offset beyond the indexed part is found by counting
the line feeds in between.

## Main definitions

* `Reader.ofSource`, `Reader.next`, `Reader.iterate`, `Reader.reset`
* `Reader.lineOf`, `Reader.columnOf?`, `Reader.lineText`
-/

namespace DialogScript

/-- A source that is being read: the offset and the text of what is still ahead, the line starts in
the first `scanned` bytes, and whether the iteration is over. -/
structure Reader where
  source : List Char
  offset : Nat := 0
  ahead : List Char := source
  lineStarts : List Nat := [0]
  scanned : Nat := 0
  finished : Bool := false
  deriving Repr

namespace Reader

/-- A reader at the beginning of a source. -/
def ofSource (source : List Char) : Reader := { source }

/-- The offsets behind the line feeds of a text that starts at the offset `o`. -/
def startsAfterFeeds (o : Nat) : List Char → List Nat
  | [] => []
  | c :: cs =>
    let rest := startsAfterFeeds (o + c.utf8Size) cs
    if c = '\n' then (o + 1) :: rest else rest

/-- The number of the line that holds the offset `o`. -/
def lineOf (r : Reader) (o : Nat) : UInt32 :=
  let indexed := r.lineStarts.countP (· ≤ o)
  let beyond := (upTo (startingAt r.source r.scanned) (o - r.scanned)).count '\n'
  saturated (indexed + beyond)

/-- The column of the offset `o`, or of the end if `o` lies past it, unless it cuts a character. -/
def columnOf? (r : Reader) (o : Nat) : Option UInt32 := columnAt? r.source o

/-- The text of the line that holds the offset `o`. -/
def lineText (r : Reader) (o : Nat) : List Char := lineTextAt r.source o

/-- How many bytes the scanner has looked past a piece with the text `rest` behind it. To end a run
of code before a bracket, it passes the bracket and steps back. -/
def overrun (p : Piece) (rest : List Char) : Nat :=
  if (p.kind = .code ∨ p.kind = .waitWhile) ∧ rest.head? = some '[' then 1 else 0

/-- Moves past a piece with the text `rest` behind it, indexing the line starts that are new. -/
def pass (r : Reader) (p : Piece) (rest : List Char) : Reader :=
  let stop := r.offset + utf8Length p.text
  { r with
    offset := stop
    ahead := rest
    lineStarts := r.lineStarts ++ (startsAfterFeeds r.offset p.text).filter (r.scanned < ·)
    scanned := max r.scanned (stop + overrun p rest) }

/-- The next token, trivia included. At the end every call gives the end of input. -/
def next (r : Reader) : Lexeme × Reader :=
  match Piece.scan? r.ahead with
  | none => (⟨.endOfInput, [], r.offset, r.lineOf r.offset⟩, r)
  | some (piece, rest) =>
    let r' := r.pass piece rest
    (⟨piece.kind, piece.text, r.offset, r'.lineOf r.offset⟩, r')

/-- The next token of an iteration, which is over once it has given the end of input. -/
def iterate (r : Reader) : Option (Lexeme × Reader) :=
  if r.finished then none
  else
    let (l, r') := r.next
    some (l, if l.kind = .endOfInput then { r' with finished := true } else r')

/-- At most `n` further tokens of an iteration. -/
def remainingUpTo : Nat → Reader → List Lexeme × Reader
  | 0, r => ([], r)
  | n + 1, r =>
    match r.iterate with
    | none => ([], r)
    | some (l, r') =>
      let (ls, r'') := remainingUpTo n r'
      (l :: ls, r'')

/-- The tokens that an iteration still gives. -/
def remaining (r : Reader) : List Lexeme × Reader := remainingUpTo (r.ahead.length + 1) r

/-- The reader at the beginning again. The line index is kept. -/
def reset (r : Reader) : Reader :=
  { r with offset := 0, ahead := r.source, finished := false }

end Reader

end DialogScript
