import DialogScript.Text.Printable

/-!
# Quoted texts in messages

A message shows a text between double quotes, with escapes for what would not show as itself:
quotes and backslashes, control characters, characters that are not printable, and marks that would
be drawn onto the character before them.
-/

namespace DialogScript.Quoted

/-- A character as it stands in a quoted text. -/
def escape (c : Char) : List Char :=
  if c = Char.ofNat 0 then ['\\', '0']
  else if c = '\t' then ['\\', 't']
  else if c = '\r' then ['\\', 'r']
  else if c = '\n' then ['\\', 'n']
  else if c = '"' ∨ c = '\\' then ['\\', c]
  else if isMark c || !isPrintable c then
    ['\\', 'u', '\x7b'] ++ Nat.toDigits 16 c.toNat ++ ['\x7d']
  else [c]

/-- The quoted form of a text. -/
def encode (cs : List Char) : List Char :=
  '"' :: (cs.flatMap escape ++ ['"'])

end DialogScript.Quoted
