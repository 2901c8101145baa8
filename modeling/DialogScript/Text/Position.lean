/-!
# Positions in a text

A position is a byte offset into the UTF-8 form of a text. Lines and columns count from one;
a line ends at its line feed, a column counts characters. Offsets past the end stand for the end.

## Main definitions

* `utf8Length`: the bytes of a list of characters
* `upTo`: the characters that begin before an offset
* `lineAt`, `columnAt?`, `lineTextAt`: the line number, column and line text of an offset
-/

namespace DialogScript

/-- The number of bytes that the characters take in UTF-8. -/
def utf8Length : List Char → Nat
  | [] => 0
  | c :: cs => c.utf8Size + utf8Length cs

@[simp]
theorem utf8Length_append (cs ds : List Char) :
    utf8Length (cs ++ ds) = utf8Length cs + utf8Length ds := by
  induction cs with
  | nil => simp [utf8Length]
  | cons c cs ih => simp [utf8Length, ih, Nat.add_assoc]

/-- A count as a line or column number: counts beyond 32 bits stay at the largest number. -/
def saturated (n : Nat) : UInt32 := UInt32.ofNat (min n 4294967295)

/-- The characters that begin before the offset `o`. -/
def upTo : List Char → Nat → List Char
  | [], _ => []
  | _ :: _, 0 => []
  | c :: cs, o + 1 => c :: upTo cs (o + 1 - c.utf8Size)

/-- The characters from the first one that begins at or after the offset `o`. -/
def startingAt : List Char → Nat → List Char
  | [], _ => []
  | c :: cs, 0 => c :: cs
  | c :: cs, o + 1 => startingAt cs (o + 1 - c.utf8Size)

/-- An offset parts a text in two. -/
theorem upTo_append_startingAt (cs : List Char) (o : Nat) : upTo cs o ++ startingAt cs o = cs := by
  induction cs generalizing o with
  | nil => simp [upTo, startingAt]
  | cons c cs ih => cases o <;> simp [upTo, startingAt, ih]

/-- The offset `o`, or the end of the text if `o` lies past it, falls between two characters. -/
def IsBoundary (cs : List Char) (o : Nat) : Prop :=
  utf8Length (upTo cs o) = min o (utf8Length cs)

instance (cs : List Char) (o : Nat) : Decidable (IsBoundary cs o) :=
  inferInstanceAs (Decidable (_ = _))

/-- The part of a text after its last line feed. -/
def lastLine (cs : List Char) : List Char :=
  (cs.reverse.takeWhile (· ≠ '\n')).reverse

/-- The part of a text before its first line feed. -/
def firstLine (cs : List Char) : List Char :=
  cs.takeWhile (· ≠ '\n')

/-- The number of the line that holds the offset `o`. -/
def lineAt (cs : List Char) (o : Nat) : UInt32 :=
  saturated (1 + (upTo cs o).count '\n')

/-- The column of the offset `o`, if it falls between two characters. -/
def columnAt? (cs : List Char) (o : Nat) : Option UInt32 :=
  if IsBoundary cs o then some (saturated ((lastLine (upTo cs o)).length + 1)) else none

/-- The text of the line that holds the offset `o`, without its line feed. -/
def lineTextAt (cs : List Char) (o : Nat) : List Char :=
  lastLine (upTo cs o) ++ firstLine (startingAt cs o)

end DialogScript
