/-!
# Big-endian numbers

Numbers in a fixed number of bytes, the most significant byte first.

## Main definitions

* `bigEndian`, `bigEndianBytes`: the number that bytes stand for, and the bytes of a number
* `twosComplement`: the integer in a number of bytes
* `front?`: the first bytes and the rest

## Main statements

* `bigEndian_bigEndianBytes`: a number that fits is read back
-/

namespace DialogScript.MessagePack

/-- The number that bytes stand for, the first being the most significant. -/
def bigEndian (bytes : List UInt8) : Nat := bytes.foldl (fun n b => n * 256 + b.toNat) 0

/-- The `width` least significant bytes of a number, the most significant first. -/
def bigEndianBytes : (width : Nat) → Nat → List UInt8
  | 0, _ => []
  | width + 1, n => bigEndianBytes width (n / 256) ++ [UInt8.ofNat n]

@[simp]
theorem length_bigEndianBytes (width n : Nat) : (bigEndianBytes width n).length = width := by
  induction width generalizing n with
  | zero => rfl
  | succ width ih => simp [bigEndianBytes, ih]

theorem bigEndian_append_singleton (bytes : List UInt8) (b : UInt8) :
    bigEndian (bytes ++ [b]) = bigEndian bytes * 256 + b.toNat := by
  simp [bigEndian]

/-- A number is read back from its bytes, if they are enough. -/
theorem bigEndian_bigEndianBytes {width n : Nat} (h : n < Nat.pow 256 width) :
    bigEndian (bigEndianBytes width n) = n := by
  induction width generalizing n with
  | zero =>
    have : n = 0 := by simpa using h
    simp [bigEndianBytes, bigEndian, this]
  | succ width ih =>
    have high : n / 256 < Nat.pow 256 width := by
      have h : n < Nat.pow 256 width * 256 := h
      omega
    have low : (UInt8.ofNat n).toNat = n % 256 := by simp
    rw [bigEndianBytes, bigEndian_append_singleton, ih high, low]
    omega

/-- The integer of a number of `width` bytes in two's complement. -/
def twosComplement (width n : Nat) : Int :=
  if n < Nat.pow 2 (8 * width - 1) then n else n - Nat.pow 2 (8 * width)

/-- The first `n` bytes and the rest, if there are so many. -/
def front? : Nat → List UInt8 → Option (List UInt8 × List UInt8)
  | 0, bytes => some ([], bytes)
  | _ + 1, [] => none
  | n + 1, b :: bytes => (front? n bytes).map fun (taken, rest) => (b :: taken, rest)

/-- Bytes in front of others are taken off them. -/
theorem front?_append (bytes rest : List UInt8) :
    front? bytes.length (bytes ++ rest) = some (bytes, rest) := by
  induction bytes with
  | nil => rfl
  | cons b bytes ih => simp [front?, ih]

end DialogScript.MessagePack
