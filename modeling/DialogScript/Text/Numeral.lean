/-!
# Decimal numerals

Integers written in base ten, and the numerals that name an integer of a given range.
-/

namespace DialogScript.Numeral

/-- The digits of a natural number. -/
def ofNat (n : Nat) : List Char := Nat.toDigits 10 n

/-- The digits of an integer, after a minus sign if it is negative. -/
def ofInt (i : Int) : List Char :=
  if i < 0 then '-' :: ofNat i.natAbs else ofNat i.natAbs

/-- The number that a nonempty list of digits names. -/
def toNat? (cs : List Char) : Option Nat :=
  if cs ≠ [] ∧ cs.all Char.isDigit then some (Nat.ofDigitChars 10 cs 0) else none

/-- A number is read back from its digits. -/
theorem toNat?_ofNat (n : Nat) : toNat? (ofNat n) = some n := by
  have digits : (Nat.toDigits 10 n).all Char.isDigit := by
    rw [List.all_eq_true]
    exact fun c h => Nat.isDigit_of_mem_toDigits (by decide) (by decide) h
  have nonempty : Nat.toDigits 10 n ≠ [] := Nat.toDigits_ne_nil
  simp [toNat?, ofNat, digits, nonempty, Nat.ofDigitChars_toDigits]

/-- The number named by digits that may follow a plus sign. -/
def unsigned? (cs : List Char) : Option Nat :=
  match cs with
  | '+' :: digits => toNat? digits
  | digits => toNat? digits

/-- The integer named by digits that may follow a sign. -/
def signed? (cs : List Char) : Option Int :=
  match cs with
  | '+' :: digits => (toNat? digits).map Int.ofNat
  | '-' :: digits => (toNat? digits).map fun n => -(n : Int)
  | digits => (toNat? digits).map Int.ofNat

/-- The 32-bit integer that a numeral names, if its value fits. -/
def int32? (cs : List Char) : Option Int32 :=
  (signed? cs).bind fun i =>
    if -2147483648 ≤ i ∧ i ≤ 2147483647 then some (Int32.ofInt i) else none

/-- The numeral of a 32-bit integer. -/
def ofInt32 (i : Int32) : List Char := ofInt i.toInt

end DialogScript.Numeral
