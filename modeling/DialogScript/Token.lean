import DialogScript.Text.Span

/-!
# Tokens

The source of a dialog is a sequence of tokens. A token has a kind and a span; a lexeme is a token
together with its text and the line on which it starts.

## Main definitions

* `TokenKind`: the kinds of tokens, their names in messages, and which of them carry no meaning
* `Token`, `Lexeme`: a token, and a token with its text
-/

namespace DialogScript

/-- The kinds of tokens. -/
inductive TokenKind
  /-- A bare word, such as `guybrush` or `shutup`. -/
  | word
  /-- A number, such as `1`, `-3` or `0.5`. -/
  | number
  /-- A text between double quotes. -/
  | string
  /-- A colon. -/
  | colon
  /-- The identifier of a text kept elsewhere, such as `$30021`. -/
  | textId
  /-- An arrow to a label. -/
  | arrow
  /-- A condition between brackets. -/
  | condition
  /-- Code for the host after an exclamation mark. -/
  | code
  /-- The word `waitwhile` with the code after it. -/
  | waitWhile
  /-- A comment up to the end of its line. -/
  | comment
  /-- A line feed. -/
  | newLine
  /-- Spaces, tabs and carriage returns. -/
  | whitespace
  /-- A character that begins no other token. -/
  | unknown
  /-- The end of the input. -/
  | endOfInput
  deriving DecidableEq, Repr, Inhabited

namespace TokenKind

/-- Tokens of this kind carry no meaning. -/
def isTrivia : TokenKind → Bool
  | .comment | .newLine | .whitespace | .unknown => true
  | _ => false

/-- The name of the kind in messages. -/
def name : TokenKind → String
  | .word => "identifier"
  | .number => "number"
  | .string => "string"
  | .colon => "':'"
  | .textId => "text id"
  | .arrow => "'->'"
  | .condition => "condition"
  | .code => "code"
  | .waitWhile => "waitwhile"
  | .comment => "comment"
  | .newLine => "newline"
  | .whitespace => "whitespace"
  | .unknown => "unknown character"
  | .endOfInput => "end of input"

end TokenKind

/-- A token: its kind and the bytes it covers. -/
structure Token where
  kind : TokenKind
  span : Span
  deriving DecidableEq, Repr, Inhabited

/-- The text of a token in the source it was read from. -/
def Token.text? (source : List Char) (token : Token) : Option (List Char) :=
  token.span.text? source

/-- A token with its text, the offset where it starts and the line of that offset. -/
structure Lexeme where
  kind : TokenKind
  text : List Char
  start : Nat
  line : UInt32
  deriving DecidableEq, Repr, Inhabited

/-- The token of a lexeme. -/
def Lexeme.token (l : Lexeme) : Token := ⟨l.kind, l.start, l.start + utf8Length l.text⟩

end DialogScript
