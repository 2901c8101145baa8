import DialogScript.Text.Grapheme.Class

/-!
# Grapheme clusters

A text falls into grapheme clusters, the signs that a reader sees. Between two characters there is a
break unless one of a few rules joins them; some of the rules look further back than to the last
character, which `Backdrop` sums up.

## Main definitions

* `Backdrop`, `Backdrop.joins`: the text before a character, and whether the character joins it
* `clusters`: the grapheme clusters of a text
-/

namespace DialogScript

/-- What counts of the text before a character. -/
structure Backdrop where
  /-- The class of the last character. -/
  last : GraphemeClass
  /-- The text ends in a consonant with marks, among them a linker or not. -/
  linked : Option Bool := none
  /-- The text ends in a pictograph with marks. -/
  pictured : Bool := false
  /-- The text ends in a pictograph with marks and a joiner. -/
  joined : Bool := false
  /-- The text ends in an odd number of regional indicators. -/
  halfFlag : Bool := false
  deriving DecidableEq, Repr

namespace Backdrop

/-- The beginning of a text with its first character. -/
def first (k : GraphemeClass) : Backdrop :=
  { last := k
    linked := if k = .consonant then some false else none
    pictured := k = .pictograph
    halfFlag := k = .regional }

/-- The text with one more character. -/
def push (b : Backdrop) (k : GraphemeClass) : Backdrop where
  last := k
  linked :=
    match k with
    | .consonant => some false
    | .linker => b.linked.map fun _ => true
    | .extending | .joiner => b.linked
    | _ => none
  pictured := k = .pictograph || (b.pictured && k.isExtension)
  joined := b.pictured && k = .joiner
  halfFlag := k = .regional && !b.halfFlag

/-- The second character carries on the Hangul sign that the first one begins. -/
def carriesOn : GraphemeClass → GraphemeClass → Bool
  | .leadingJamo, k =>
    k = .leadingJamo || k = .vowelJamo || k = .openSyllable || k = .closedSyllable
  | .openSyllable, k | .vowelJamo, k => k = .vowelJamo || k = .trailingJamo
  | .closedSyllable, k | .trailingJamo, k => k = .trailingJamo
  | _, _ => false

/-- A character joins the text before it. -/
def joins (b : Backdrop) (k : GraphemeClass) : Bool :=
  if b.last = .carriageReturn then k = .lineFeed
  else if b.last.isAlone || k.isAlone then false
  else
    k.isExtension || k = .joiner || k = .spacing || b.last = .prepended || carriesOn b.last k ||
      (k = .consonant && b.linked = some true) || (k = .pictograph && b.joined) ||
      (k = .regional && b.halfFlag)

end Backdrop

/-- What joins the text before, and the clusters that follow. -/
def continued (b : Backdrop) : List Char → List Char × List (List Char)
  | [] => ([], [])
  | c :: cs =>
    let k := GraphemeClass.ofChar c
    let (more, others) := continued (b.push k) cs
    if b.joins k then (c :: more, others) else ([], (c :: more) :: others)

/-- The grapheme clusters of a text. -/
def clusters : List Char → List (List Char)
  | [] => []
  | c :: cs =>
    let (more, others) := continued (.first (GraphemeClass.ofChar c)) cs
    (c :: more) :: others

end DialogScript
