import DialogScript.Number.Binary

/-!
# The shortest decimal of a number

A finite number is written with as few digits as let it be read back. The decimals with a given
last place form a grid; the coarsest grid with a point that reads back gives the digits, and of two
such points the nearer, the upper one if both are equally near.

## Main definitions

* `BinaryFormat.shortest`: the decimal that stands for a finite magnitude
* `Binary.text`: the text of a number
* `Binary.pointedText`: the same, with a point in every finite number
-/

namespace DialogScript

namespace BinaryFormat

/-- The point of the grid of multiples of `10 ^ exponent` that stands for the magnitude at `rank`,
if one reads back. The two points around the magnitude are tried. -/
def onGrid? (f : BinaryFormat) (rank : Nat) (exponent : Int) : Option Decimal :=
  let (num, den) :=
    if 0 ≤ exponent then (f.units rank, Nat.pow 10 exponent.toNat * Nat.pow 2 f.least)
    else (f.units rank * Nat.pow 10 exponent.natAbs, Nat.pow 2 f.least)
  let below : Decimal := ⟨num / den, exponent⟩
  let above : Decimal := ⟨num / den + 1, exponent⟩
  let readsBack := fun d : Decimal => d.coefficient ≠ 0 ∧ f.ofDecimal d = rank
  if readsBack above ∧ den ≤ 2 * (num % den) then some above
  else if readsBack below then some below
  else if readsBack above then some above
  else none

/-- The first point that reads back on the grids of `exponent` and the `steps` finer ones. -/
def search (f : BinaryFormat) (rank : Nat) : Nat → Int → Option Decimal
  | 0, exponent => f.onGrid? rank exponent
  | steps + 1, exponent =>
    match f.onGrid? rank exponent with
    | some d => some d
    | none => f.search rank steps (exponent - 1)

/-- The decimal that stands for a finite magnitude. The search begins at a power of ten above the
magnitude. On the grid of `10 ^ -least` every magnitude is a point, so it does not fail. -/
def shortest (f : BinaryFormat) (rank : Nat) : Decimal :=
  if rank = 0 then ⟨0, 0⟩
  else
    let start := (Numeral.ofNat (f.units rank / Nat.pow 2 f.least)).length
    (f.search rank (start + f.least) start).getD ⟨f.units rank * Nat.pow 5 f.least, -f.least⟩

end BinaryFormat

namespace Binary

variable {f : BinaryFormat}

/-- The text of a number: its shortest decimal in positional form after its sign. -/
def text : Binary f → List Char
  | .nan => ['N', 'a', 'N']
  | .signed negative rank =>
    let magnitude :=
      if rank.val = f.infinity then ['i', 'n', 'f'] else (f.shortest rank.val).positional
    if negative then '-' :: magnitude else magnitude

/-- The number is neither infinite nor no number at all. -/
def isFinite : Binary f → Bool
  | .nan => false
  | .signed _ rank => rank.val ≠ f.infinity

/-- The text of a number, with a point and a zero behind it if it is finite and has no point. -/
def pointedText (x : Binary f) : List Char :=
  if x.isFinite && !x.text.contains '.' then x.text ++ ['.', '0'] else x.text

end Binary

end DialogScript
