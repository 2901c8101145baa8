import DialogScript.Text.Numeral

/-!
# Decimal numbers

A decimal number is a coefficient times a power of ten. Its positional form shows every digit and
never an exponent; its scientific form may end in one.

## Main definitions

* `Decimal.positional`: the positional text of a decimal
* `Decimal.unsigned?`: the decimal that a text without a sign names
-/

namespace DialogScript

/-- The number `coefficient * 10 ^ exponent`. -/
structure Decimal where
  coefficient : Nat
  exponent : Int
  deriving DecidableEq, Repr

namespace Decimal

/-- The digits of a decimal with a point in place of its exponent: zeros fill the places between
the digits and the point. -/
def positional (d : Decimal) : List Char :=
  let digits := Numeral.ofNat d.coefficient
  if d.coefficient = 0 then ['0']
  else if 0 ≤ d.exponent then digits ++ List.replicate d.exponent.toNat '0'
  else
    let places := d.exponent.natAbs
    if places < digits.length then
      digits.take (digits.length - places) ++ '.' :: digits.drop (digits.length - places)
    else '0' :: '.' :: (List.replicate (places - digits.length) '0' ++ digits)

/-- The power of ten named by what follows the digits of a number: nothing, or the letter `e` and
an integer. -/
def exponent? (cs : List Char) : Option Int :=
  match cs with
  | [] => some 0
  | c :: rest => if c = 'e' ∨ c = 'E' then Numeral.signed? rest else none

/-- The decimal named by digits, at most one point among or beside them, and at most one exponent
after them. -/
def unsigned? (cs : List Char) : Option Decimal :=
  let whole := cs.takeWhile Char.isDigit
  let rest := cs.dropWhile Char.isDigit
  let (fraction, tail) :=
    match rest with
    | '.' :: after => (after.takeWhile Char.isDigit, after.dropWhile Char.isDigit)
    | _ => ([], rest)
  if whole = [] ∧ fraction = [] then none
  else (exponent? tail).map fun e =>
    ⟨Nat.ofDigitChars 10 (whole ++ fraction) 0, e - fraction.length⟩

end Decimal

end DialogScript
