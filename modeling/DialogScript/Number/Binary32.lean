import DialogScript.Number.Binary

/-!
# Numbers of 32 bits

The numbers in which a dialog tells lengths of time, and the texts that name them.

## Main definitions

* `Binary32`: the numbers of 32 bits, with 24 significant bits
* `Binary32.read?`: the number that a text names
-/

namespace DialogScript

/-- A binary floating-point number of 32 bits. -/
abbrev Binary32 := Binary .single

namespace Binary32

/-- The number zero. -/
def zero : Binary32 := .ofRank false 0

/-- The number that a text names: an optional sign, then a decimal, `inf`, `infinity` or `nan`,
words in letters of either case. -/
def read? (cs : List Char) : Option Binary32 :=
  let (negative, magnitude) :=
    match cs with
    | '-' :: rest => (true, rest)
    | '+' :: rest => (false, rest)
    | _ => (false, cs)
  let word := magnitude.map Char.toLower
  if word = ['i', 'n', 'f'] ∨ word = ['i', 'n', 'f', 'i', 'n', 'i', 't', 'y'] then
    some (.ofRank negative BinaryFormat.single.infinity)
  else if word = ['n', 'a', 'n'] then some .nan
  else
    (Decimal.unsigned? magnitude).map fun d => .ofRank negative (BinaryFormat.single.ofDecimal d)

end Binary32

end DialogScript
