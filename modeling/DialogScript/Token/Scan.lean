import DialogScript.Token

/-!
# Scanning

One step of the scanner takes the next piece of text off the source: a kind and a nonempty text. The
source ends at its end or at a NUL character where a piece would begin. Delimiters are ASCII, and no
character is escaped.

## Main definitions

* `Piece`, `Piece.scan?`: a piece of source and the step that takes one off
* `Piece.all`: all pieces of a source
* `lexemes`: the pieces of a source as lexemes, the end of input left out
* `tokens`: the tokens of a source, the end of input included

## Main results

* `Piece.scan?_eq_some`: a piece and the source after it make up the source before it
* `Piece.all_eq`: the pieces of a source are its first piece and the pieces of the rest
-/

namespace DialogScript

/-- A piece of source: a kind and a text. -/
structure Piece where
  kind : TokenKind
  text : List Char
  deriving DecidableEq, Repr

namespace Piece

/-- The character that ends a source where a token would begin. -/
def nul : Char := Char.ofNat 0

/-- Splits a text after its first `close`, or at its end if there is none. -/
def through (close : Char) : List Char → List Char × List Char
  | [] => ([], [])
  | c :: cs =>
    if c = close then ([c], cs) else (c :: (through close cs).1, (through close cs).2)

/-- Splits a text at the end of a run of code. The run ends before a line feed, before a NUL, and
before a bracket that follows a space and is not followed by one. `spaced` tells whether the
character before the text is a space of the run. -/
def codeRun (spaced : Bool) : List Char → List Char × List Char
  | [] => ([], [])
  | c :: cs =>
    if c = '\n' ∨ c = nul then ([], c :: cs)
    else if spaced ∧ c = '[' ∧ cs.head? ≠ some ' ' then ([], c :: cs)
    else (c :: (codeRun (c = ' ') cs).1, (codeRun (c = ' ') cs).2)

/-- Splits a text after the longest run of characters that satisfy `p`. -/
def run (p : Char → Bool) (cs : List Char) : List Char × List Char :=
  (cs.takeWhile p, cs.dropWhile p)

/-- Splits a text after the digits at its beginning and, if a point and a digit follow them, after
the point and the digits behind it. -/
def digits (cs : List Char) : List Char × List Char :=
  let whole := cs.takeWhile Char.isDigit
  match cs.dropWhile Char.isDigit with
  | '.' :: d :: rest =>
    if d.isDigit then
      (whole ++ '.' :: d :: rest.takeWhile Char.isDigit, rest.dropWhile Char.isDigit)
    else (whole, '.' :: d :: rest)
  | rest => (whole, rest)

/-- The character separates tokens on a line. -/
def isGap (c : Char) : Bool := c = ' ' || c = '\t' || c = '\r'

/-- The character may stand in a word after its first letter. -/
def isWordChar (c : Char) : Bool := c.isAlphanum || c = '_'

/-- The character may stand in a text identifier after its dollar sign. -/
def isTextIdChar (c : Char) : Bool := !(c = '[' || c = ' ' || c = '\n' || c = nul)

/-- The word that takes the code behind it along. -/
def waitWhileWord : List Char := ['w', 'a', 'i', 't', 'w', 'h', 'i', 'l', 'e']

/-- The kind of the piece that begins with `c`, the text it takes from what follows `c`, and the
source after the piece. -/
def scanFrom (c : Char) (cs : List Char) : TokenKind × List Char × List Char :=
  if c = '\n' then (.newLine, [], cs)
  else if isGap c then (.whitespace, run isGap cs)
  else if c = '!' then (.code, codeRun false cs)
  else if c = ':' then (.colon, [], cs)
  else if c = '$' then (.textId, run isTextIdChar cs)
  else if c = '[' then (.condition, through ']' cs)
  else if c = '"' then (.string, through '"' cs)
  else if c = '#' ∨ c = ';' then (.comment, run (· ≠ '\n') cs)
  else if c = '-' ∧ cs.head? = some '>' then (.arrow, ['>'], cs.tail)
  else if c = '-' then (.number, digits cs)
  else if c.isDigit then (.number, (digits (c :: cs)).1.tail, (digits (c :: cs)).2)
  else if c.isAlpha then
    let word := cs.takeWhile isWordChar
    let rest := cs.dropWhile isWordChar
    if c :: word = waitWhileWord then
      (.waitWhile, word ++ (codeRun false rest).1, (codeRun false rest).2)
    else (.word, word, rest)
  else (.unknown, [], cs)

/-- Takes the next piece off a source, if the source has not ended. -/
def scan? : List Char → Option (Piece × List Char)
  | [] => none
  | c :: cs =>
    if c = nul then none
    else some (⟨(scanFrom c cs).1, c :: (scanFrom c cs).2.1⟩, (scanFrom c cs).2.2)

theorem through_append (close : Char) (cs : List Char) :
    (through close cs).1 ++ (through close cs).2 = cs := by
  induction cs with
  | nil => rfl
  | cons c cs ih => by_cases h : c = close <;> simp [through, h, ih]

theorem codeRun_append (spaced : Bool) (cs : List Char) :
    (codeRun spaced cs).1 ++ (codeRun spaced cs).2 = cs := by
  induction cs generalizing spaced with
  | nil => rfl
  | cons c cs ih =>
    rw [codeRun]
    split
    · rfl
    · split
      · rfl
      · simp [ih]

theorem run_append (p : Char → Bool) (cs : List Char) : (run p cs).1 ++ (run p cs).2 = cs :=
  List.takeWhile_append_dropWhile

theorem digits_append (cs : List Char) : (digits cs).1 ++ (digits cs).2 = cs := by
  have whole := List.takeWhile_append_dropWhile (p := Char.isDigit) (l := cs)
  rw [digits]
  split
  · rename_i d rest heq
    refine Eq.trans ?_ whole
    rw [heq]
    split <;> simp
  · exact whole

/-- A digit begins its own digits. -/
theorem digits_cons {c : Char} (h : c.isDigit) (cs : List Char) :
    (digits (c :: cs)).1 = c :: (digits (c :: cs)).1.tail := by
  rw [digits, List.takeWhile_cons_of_pos h]
  split
  · split <;> rfl
  · rfl

/-- A piece takes nothing from the source but a part of its beginning. -/
theorem scanFrom_append (c : Char) (cs : List Char) :
    (scanFrom c cs).2.1 ++ (scanFrom c cs).2.2 = cs := by
  let Splits (r : TokenKind × List Char × List Char) : Prop := r.2.1 ++ r.2.2 = cs
  have word := List.takeWhile_append_dropWhile (p := isWordChar) (l := cs)
  change Splits (scanFrom c cs)
  unfold scanFrom
  refine iteInduction (fun _ => rfl) fun _ => ?_
  refine iteInduction (fun _ => run_append _ _) fun _ => ?_
  refine iteInduction (fun _ => codeRun_append _ _) fun _ => ?_
  refine iteInduction (fun _ => rfl) fun _ => ?_
  refine iteInduction (fun _ => run_append _ _) fun _ => ?_
  refine iteInduction (fun _ => through_append _ _) fun _ => ?_
  refine iteInduction (fun _ => through_append _ _) fun _ => ?_
  refine iteInduction (fun _ => run_append _ _) fun _ => ?_
  refine iteInduction (fun h => ?_) fun _ => ?_
  · cases cs with
    | nil => simp at h
    | cons d ds => simp only [List.head?_cons, Option.some.injEq] at h; simp [Splits, h.2]
  refine iteInduction (fun _ => digits_append _) fun _ => ?_
  refine iteInduction (fun h => ?_) fun _ => ?_
  · have whole := digits_append (c :: cs)
    rw [digits_cons h, List.cons_append, List.cons.injEq] at whole
    exact whole.2
  refine iteInduction (fun _ => ?_) fun _ => rfl
  refine iteInduction (fun _ => ?_) fun _ => word
  simp [Splits, codeRun_append]

/-- A piece and the source after it make up the source before it, and the piece is not empty. -/
theorem scan?_eq_some {cs rest : List Char} {piece : Piece} (h : scan? cs = some (piece, rest)) :
    cs = piece.text ++ rest ∧ piece.text ≠ [] := by
  cases cs with
  | nil => simp [scan?] at h
  | cons c cs =>
    rw [scan?] at h
    split at h
    · simp at h
    · simp only [Option.some.injEq, Prod.mk.injEq] at h
      obtain ⟨rfl, rfl⟩ := h
      simp [scanFrom_append]

theorem length_lt_of_scan? {cs rest : List Char} {piece : Piece}
    (h : scan? cs = some (piece, rest)) : rest.length < cs.length := by
  obtain ⟨rfl, nonempty⟩ := scan?_eq_some h
  have := List.length_pos_iff.2 nonempty
  rw [List.length_append]
  omega

/-- At most `n` pieces from the beginning of a source. -/
def take : Nat → List Char → List Piece
  | 0, _ => []
  | n + 1, cs =>
    match scan? cs with
    | none => []
    | some (piece, rest) => piece :: take n rest

/-- The pieces of a source, in order. A source has no more pieces than characters. -/
def all (cs : List Char) : List Piece := take cs.length cs

/-- A source has no more pieces than characters. -/
theorem take_eq {n m : Nat} {cs : List Char} (hn : cs.length ≤ n) (hm : cs.length ≤ m) :
    take n cs = take m cs := by
  induction n generalizing m cs with
  | zero =>
    obtain rfl : cs = [] := List.eq_nil_of_length_eq_zero (by omega)
    cases m <;> simp [take, scan?]
  | succ n ih =>
    cases m with
    | zero =>
      obtain rfl : cs = [] := List.eq_nil_of_length_eq_zero (by omega)
      simp [take, scan?]
    | succ m =>
      rw [take, take]
      split
      · rfl
      · rename_i piece rest h
        have := length_lt_of_scan? h
        rw [ih (m := m) (by omega) (by omega)]

/-- The pieces of a source are its first piece and the pieces of the rest. -/
theorem all_eq (cs : List Char) :
    all cs = match scan? cs with
      | none => []
      | some (piece, rest) => piece :: all rest := by
  rw [all, take_eq (Nat.le_refl _) (Nat.le_succ _), take]
  split
  · rfl
  · rename_i piece rest h
    rw [all, take_eq (Nat.le_of_lt (length_lt_of_scan? h)) (Nat.le_refl _)]

end Piece

/-- Lexemes from pieces, the first of which starts at the offset `start` after `feeds` line
feeds. -/
def lexemesFrom (start feeds : Nat) : List Piece → List Lexeme
  | [] => []
  | p :: ps =>
    ⟨p.kind, p.text, start, saturated (1 + feeds)⟩ ::
      lexemesFrom (start + utf8Length p.text) (feeds + p.text.count '\n') ps

/-- The lexemes of a source, trivia included and the end of input left out. -/
def lexemes (source : List Char) : List Lexeme := lexemesFrom 0 0 (Piece.all source)

/-- The lexemes of a source that carry meaning. -/
def significant (source : List Char) : List Lexeme :=
  (lexemes source).filter fun l => !l.kind.isTrivia

/-- The offset at which the pieces of a source end. -/
def endOffset (source : List Char) : Nat := utf8Length ((Piece.all source).flatMap Piece.text)

/-- The tokens of a source, trivia and the end of input included. -/
def tokens (source : List Char) : List Token :=
  (lexemes source).map Lexeme.token ++ [⟨.endOfInput, .empty (endOffset source)⟩]

end DialogScript
