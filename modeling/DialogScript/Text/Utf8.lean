/-!
# UTF-8 with replacement

Bytes are read as UTF-8. Where they are not, each longest run of bytes that begins a character
but does not finish it, and each byte that begins none, is read as U+FFFD.

## Main definitions

* `Utf8.decodeLossy`: the characters of a list of bytes
* `Utf8.ofBytes?`: the text of bytes that are UTF-8 throughout
* `Utf8.Fault`, `Utf8.fault`: what is wrong with bytes that are not
* `Utf8.toBytes`: the bytes of a text
-/

namespace DialogScript.Utf8

/-- A character that has been begun: how many bytes it still owes, the range of the next one, and
the bits read so far. -/
structure Pending where
  owed : Nat
  low : Nat
  high : Nat
  bits : Nat

/-- What a first byte means. -/
inductive Lead
  | char (c : Char)
  | pending (p : Pending)
  | invalid

/-- The meaning of a byte at the beginning of a character. -/
def lead (byte : UInt8) : Lead :=
  let b := byte.toNat
  if b < 0x80 then .char (Char.ofNat b)
  else if 0xc2 ≤ b ∧ b ≤ 0xdf then .pending ⟨1, 0x80, 0xbf, b - 0xc0⟩
  else if b = 0xe0 then .pending ⟨2, 0xa0, 0xbf, 0⟩
  else if b = 0xed then .pending ⟨2, 0x80, 0x9f, 0xd⟩
  else if 0xe1 ≤ b ∧ b ≤ 0xef then .pending ⟨2, 0x80, 0xbf, b - 0xe0⟩
  else if b = 0xf0 then .pending ⟨3, 0x90, 0xbf, 0⟩
  else if 0xf1 ≤ b ∧ b ≤ 0xf3 then .pending ⟨3, 0x80, 0xbf, b - 0xf0⟩
  else if b = 0xf4 then .pending ⟨3, 0x80, 0x8f, 4⟩
  else .invalid

/-- The character read in place of bytes that are not UTF-8. -/
def replacement : Char := Char.ofNat 0xfffd

/-- Reads on, with `pending` the character begun by the bytes before. -/
def decodeFrom : Option Pending → List UInt8 → List Char
  | none, [] => []
  | some _, [] => [replacement]
  | pending, byte :: rest =>
    let fresh := fun before : List Char =>
      match lead byte with
      | .char c => before ++ c :: decodeFrom none rest
      | .pending p => before ++ decodeFrom (some p) rest
      | .invalid => before ++ replacement :: decodeFrom none rest
    match pending with
    | none => fresh []
    | some p =>
      if p.low ≤ byte.toNat ∧ byte.toNat ≤ p.high then
        let bits := p.bits * 64 + (byte.toNat - 0x80)
        if p.owed ≤ 1 then Char.ofNat bits :: decodeFrom none rest
        else decodeFrom (some ⟨p.owed - 1, 0x80, 0xbf, bits⟩) rest
      else fresh [replacement]

/-- The characters of the bytes, with U+FFFD for what is not UTF-8. -/
def decodeLossy (bytes : List UInt8) : List Char := decodeFrom none bytes

/-- The text of bytes that are UTF-8 throughout. -/
def ofBytes? (bytes : List UInt8) : Option String := String.fromUTF8? ⟨bytes.toArray⟩

/-- What is wrong with bytes that are not UTF-8. -/
inductive Fault
  /-- At an index stand this many bytes that begin no character, or one that is not finished. -/
  | invalid (count index : Nat)
  /-- The bytes end in a character begun at an index. -/
  | incomplete (index : Nat)
  deriving DecidableEq, Repr

/-- The text that tells what is wrong. -/
def Fault.message : Fault → String
  | invalid count index => s!"invalid utf-8 sequence of {count} bytes from index {index}"
  | incomplete index => s!"incomplete utf-8 byte sequence from index {index}"

/-- The first fault from `index` on, with `pending` the character begun at `start`. Bytes without a
fault count as incomplete. -/
def faultFrom (start index : Nat) : Option Pending → List UInt8 → Fault
  | _, [] => .incomplete start
  | none, byte :: rest =>
    match lead byte with
    | .char _ => faultFrom (index + 1) (index + 1) none rest
    | .pending p => faultFrom index (index + 1) (some p) rest
    | .invalid => .invalid 1 index
  | some p, byte :: rest =>
    if p.low ≤ byte.toNat ∧ byte.toNat ≤ p.high then
      if p.owed ≤ 1 then faultFrom (index + 1) (index + 1) none rest
      else faultFrom start (index + 1) (some ⟨p.owed - 1, 0x80, 0xbf, 0⟩) rest
    else .invalid (index - start) start

/-- What is wrong with bytes that are not UTF-8. -/
def fault (bytes : List UInt8) : Fault := faultFrom 0 0 none bytes

/-- The UTF-8 bytes of a text. -/
def toBytes (s : String) : List UInt8 := s.toUTF8.data.toList

/-- A text is read back from its bytes. -/
theorem ofBytes?_toBytes (s : String) : ofBytes? (toBytes s) = some s := by
  have h : (⟨(toBytes s).toArray⟩ : ByteArray) = s.toUTF8 := by simp [toBytes]
  rw [ofBytes?, h]
  simp [String.fromUTF8?, String.fromUTF8, String.toUTF8, s.isValidUTF8]

end DialogScript.Utf8
