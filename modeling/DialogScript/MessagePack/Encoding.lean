import DialogScript.MessagePack.BigEndian

/-!
# Shortest encodings

The encodings of numbers and texts, and of the heads of arrays and maps, in as few bytes as the
format allows.

## Main definitions

* `unsignedBytes`, `textBytes`, `arrayHeader`, `mapHeader`
-/

namespace DialogScript.MessagePack

/-- A marker byte and a number of `width` bytes. -/
def numbered (marker : UInt8) (width n : Nat) : List UInt8 := marker :: bigEndianBytes width n

/-- The shortest encoding of a natural number below `2 ^ 64`. -/
def unsignedBytes (n : Nat) : List UInt8 :=
  if n < 0x80 then [UInt8.ofNat n]
  else if n < Nat.pow 2 8 then numbered 0xcc 1 n
  else if n < Nat.pow 2 16 then numbered 0xcd 2 n
  else if n < Nat.pow 2 32 then numbered 0xce 4 n
  else numbered 0xcf 8 n

/-- The shortest encoding of a text of fewer than `2 ^ 32` bytes. -/
def textBytes (content : List UInt8) : List UInt8 :=
  let n := content.length
  let header :=
    if n < 32 then [UInt8.ofNat (0xa0 + n)]
    else if n < Nat.pow 2 8 then numbered 0xd9 1 n
    else if n < Nat.pow 2 16 then numbered 0xda 2 n
    else numbered 0xdb 4 n
  header ++ content

/-- The shortest header of an array of fewer than `2 ^ 32` items. -/
def arrayHeader (n : Nat) : List UInt8 :=
  if n < 16 then [UInt8.ofNat (0x90 + n)]
  else if n < Nat.pow 2 16 then numbered 0xdc 2 n
  else numbered 0xdd 4 n

/-- The shortest header of a map of fewer than `2 ^ 32` pairs. -/
def mapHeader (n : Nat) : List UInt8 :=
  if n < 16 then [UInt8.ofNat (0x80 + n)]
  else if n < Nat.pow 2 16 then numbered 0xde 2 n
  else numbered 0xdf 4 n

end DialogScript.MessagePack
