import DialogScript.MessagePack.BigEndian
import DialogScript.MessagePack.Head

/-!
# Decoders

A decoder takes bytes off the front and leaves the rest to the next one. What it cannot read it
reports at once, so of two faults in a document the first one counts.

## Main definitions

* `Decoder`, `marker`, `head`: decoders, for the marker and the head of the next value
* `nested`: the values in a value, with a bound on how deep they lie
* `skip`: passes over a value
* `Head.reject`: the report of a value of the wrong kind
-/

namespace DialogScript.MessagePack

/-- What reads from the front of some bytes. -/
abbrev Decoder (α : Type) := StateT (List UInt8) (Except DecodeError) α

/-- The next `n` bytes. -/
def bytes (missing : DecodeError) (n : Nat) : Decoder (List UInt8) := do
  match front? n (← get) with
  | some (taken, rest) =>
    set rest
    return taken
  | none => throw missing

/-- The number in the next `width` bytes. -/
def number (width : Nat) : Decoder Nat := do
  return bigEndian (← bytes .missingNumber width)

/-- The marker of the next value. -/
def marker : Decoder Marker := do
  match ← get with
  | [] => throw .missingMarker
  | byte :: rest =>
    set rest
    return .ofByte byte

/-- The number of 64 bits in the next `width` bytes, of which there are four or eight. -/
def floating (width : Nat) : Decoder (Binary .double) := do
  let bits ← number width
  return if width = 4 then (Binary.ofBits (f := .single) bits).convert .double else .ofBits bits

/-- The head of the value that a marker begins. -/
def Marker.head : Marker → Decoder Head
  | .nil => return .nil
  | .reserved => throw (.wrongMarker .reserved)
  | .bool b => return .bool b
  | .shortUnsigned n => return .unsigned n
  | .shortSigned i => return .signed i
  | .shortText length => return .text (← bytes .missingContent length)
  | .shortArray length => return .array length
  | .shortMap length => return .map length
  | .shortExtension length => return .extension length
  | .unsigned width => return .unsigned (← number width)
  | .signed width => return .signed (twosComplement width (← number width))
  | .float width => return .float (← floating width)
  | .text width => do return .text (← bytes .missingContent (← number width))
  | .binary width => do return .binary (← bytes .missingContent (← number width))
  | .array width => return .array (← number width)
  | .map width => return .map (← number width)
  | .extension width => return .extension (← number width)

/-- The head of the next value. -/
def head : Decoder Head := do (← marker).head

/-- How deep values may lie in others. -/
def maxDepth : Nat := 1023

/-- Reads what lies in a value; `depth` tells how much deeper than the value one may go. -/
def nested {α : Type} (inner : Nat → Decoder α) : (depth : Nat) → Decoder α
  | 0 => throw .tooDeep
  | depth + 1 => inner depth

/-- Does something a number of times. -/
def times (n : Nat) (d : Decoder Unit) : Decoder Unit :=
  match n with
  | 0 => return ()
  | n + 1 => do
    d
    times n d

/-- Passes over what follows a head; `inner` passes over a value in the value, if there may be
any. -/
def skipRest (inner : Option (Decoder Unit)) (h : Head) : Decoder Unit :=
  let within (d : Decoder Unit → Decoder Unit) : Decoder Unit := inner.elim (throw .tooDeep) d
  match h with
  | .array length => within (times length)
  | .map length => within (times (2 * length))
  | .extension length => within fun _ => do
    discard (number 1)
    discard (bytes .missingContent length)
  | _ => return ()

/-- Passes over a value, which may go `depth` deep. -/
def skip : (depth : Nat) → Decoder Unit
  | 0 => do skipRest none (← head)
  | depth + 1 => do skipRest (some (skip depth)) (← head)

/-- The text in bytes that have to be UTF-8. -/
def utf8 (content : List UInt8) : Decoder String :=
  match Utf8.ofBytes? content with
  | some s => return s
  | none => throw (.invalidText (Utf8.fault content))

/-- What is asked of a value before its kind: that a text is UTF-8, and that a value with values in
it does not lie too deep. -/
def Head.check (h : Head) (depth : Nat) : Decoder Unit :=
  match h with
  | .text content => discard (utf8 content)
  | .array _ | .map _ | .extension _ => nested (fun _ => return ()) depth
  | _ => return ()

/-- Reports that a value is not of the kind asked for. -/
def Head.reject {α : Type} (h : Head) (wanted : Wanted) (depth : Nat) : Decoder α := do
  h.check depth
  throw (.invalidType h wanted)

end DialogScript.MessagePack
