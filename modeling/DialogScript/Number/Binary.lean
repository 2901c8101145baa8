import DialogScript.Number.Decimal

/-!
# Binary floating-point numbers

The binary floating-point numbers of a format. The magnitudes of a format are numbered upwards from
zero, so that the neighbour of a magnitude has the next number; the last number stands for infinity.
Every finite magnitude is a whole multiple of the least one, a power of two.

## Main definitions

* `BinaryFormat`: a format, with `BinaryFormat.single` of 32 bits and `BinaryFormat.double` of 64
* `BinaryFormat.units`: a magnitude as a multiple of the least one
* `BinaryFormat.nearest`: the magnitude nearest to a fraction, a tie going to the even number
* `Binary`: not a number, or a sign and the number of a magnitude
* `Binary.ofBits`, `Binary.convert`: the number that bits stand for, and the nearest number of
  another format
-/

namespace DialogScript

/-- A format of binary floating-point numbers. -/
structure BinaryFormat where
  /-- How many bits of a magnitude follow the leading one. -/
  fraction : Nat
  /-- The least magnitude is `2 ^ -least`. -/
  least : Nat
  /-- How many exponents the finite magnitudes have. -/
  exponents : Nat
  deriving DecidableEq, Repr

namespace BinaryFormat

/-- The numbers of 32 bits. -/
def single : BinaryFormat := ⟨23, 149, 255⟩

/-- The numbers of 64 bits. -/
def double : BinaryFormat := ⟨52, 1074, 2047⟩

/-- The place of infinity among the magnitudes. -/
def infinity (f : BinaryFormat) : Nat := f.exponents * Nat.pow 2 f.fraction

/-- The magnitude at a place, as a multiple of the least one. -/
def units (f : BinaryFormat) (rank : Nat) : Nat :=
  let binade := Nat.pow 2 f.fraction
  if rank < binade then rank
  else (binade + rank % binade) * Nat.pow 2 (rank / binade - 1)

/-- The quotient rounded to the nearest whole number, a tie going to the even one. -/
def divEven (num den : Nat) : Nat :=
  let q := num / den
  let twice := 2 * (num % den)
  if twice < den ∨ (twice = den ∧ q % 2 = 0) then q else q + 1

/-- The place of the magnitude nearest to `num / den`, a tie going to the even place. Past the
largest finite magnitude it is the place of infinity, or one that stands for it. -/
def nearest (f : BinaryFormat) (num den : Nat) : Nat :=
  let scaled := num * Nat.pow 2 f.least
  let shift := (scaled / den).log2 - f.fraction
  shift * Nat.pow 2 f.fraction + divEven scaled (den * Nat.pow 2 shift)

/-- The place of the magnitude nearest to a decimal. Decimals far outside the range of finite
magnitudes are settled by their size. -/
def ofDecimal (f : BinaryFormat) (d : Decimal) : Nat :=
  let size := (Numeral.ofNat d.coefficient).length + d.exponent
  if d.coefficient = 0 ∨ size < -f.least then 0
  else if f.exponents < size then f.infinity
  else if 0 ≤ d.exponent then f.nearest (d.coefficient * Nat.pow 10 d.exponent.toNat) 1
  else f.nearest d.coefficient (Nat.pow 10 d.exponent.natAbs)

end BinaryFormat

/-- A number of a format. -/
inductive Binary (f : BinaryFormat)
  /-- Not a number. -/
  | nan
  /-- A sign and a magnitude, as its place in the order of magnitudes. -/
  | signed (negative : Bool) (rank : Fin (f.infinity + 1))
  deriving DecidableEq, Repr

namespace Binary

variable {f : BinaryFormat}

/-- A sign and the magnitude at a place; places past the last stand for infinity. -/
def ofRank (negative : Bool) (rank : Nat) : Binary f :=
  .signed negative ⟨min rank f.infinity, Nat.lt_succ_of_le (Nat.min_le_right _ _)⟩

instance : Inhabited (Binary f) := ⟨ofRank false 0⟩

/-- The number that bits stand for: a sign, and the place of a magnitude. The places past infinity
are not numbers. -/
def ofBits (bits : Nat) : Binary f :=
  let span := f.infinity + Nat.pow 2 f.fraction
  let rank := bits % span
  if rank ≤ f.infinity then ofRank (span ≤ bits) rank else .nan

/-- The nearest number of another format. -/
def convert (g : BinaryFormat) : Binary f → Binary g
  | .nan => .nan
  | .signed negative rank =>
    if rank.val = f.infinity then ofRank negative g.infinity
    else ofRank negative (g.nearest (f.units rank.val) (Nat.pow 2 f.least))

/-- Numerical equality: zeros of either sign are equal, and what is not a number equals nothing. -/
def equals : Binary f → Binary f → Bool
  | .signed n₁ r₁, .signed n₂ r₂ => r₁ = r₂ && (n₁ = n₂ || r₁.val = 0)
  | _, _ => false

end Binary

end DialogScript
