/-!
# Markers

Every MessagePack value begins with a marker, one byte that tells the kind of the value. A short
value lies in the marker itself, or its length does; otherwise the marker tells the width in bytes
of the number, or of the length, behind it.

## Main definitions

* `Marker`, `Marker.ofByte`: the markers and their bytes
* `Marker.name`: the names of markers in messages
-/

namespace DialogScript.MessagePack

/-- What a value begins with. -/
inductive Marker
  | nil
  /-- The marker that no value has. -/
  | reserved
  | bool (b : Bool)
  | shortUnsigned (n : Nat)
  | shortSigned (i : Int)
  | shortText (length : Nat)
  | shortArray (length : Nat)
  | shortMap (length : Nat)
  | shortExtension (length : Nat)
  | unsigned (width : Nat)
  | signed (width : Nat)
  | float (width : Nat)
  | text (width : Nat)
  | binary (width : Nat)
  | array (width : Nat)
  | map (width : Nat)
  | extension (width : Nat)
  deriving DecidableEq, Repr

namespace Marker

/-- The meaning of a marker byte. -/
def ofByte (byte : UInt8) : Marker :=
  let b := byte.toNat
  if b < 0x80 then shortUnsigned b
  else if b < 0x90 then shortMap (b - 0x80)
  else if b < 0xa0 then shortArray (b - 0x90)
  else if b < 0xc0 then shortText (b - 0xa0)
  else if b = 0xc0 then nil
  else if b = 0xc1 then reserved
  else if b < 0xc4 then bool (b = 0xc3)
  else if b < 0xc7 then binary (Nat.pow 2 (b - 0xc4))
  else if b < 0xca then extension (Nat.pow 2 (b - 0xc7))
  else if b < 0xcc then float (Nat.pow 2 (b - 0xc8))
  else if b < 0xd0 then unsigned (Nat.pow 2 (b - 0xcc))
  else if b < 0xd4 then signed (Nat.pow 2 (b - 0xd0))
  else if b < 0xd9 then shortExtension (Nat.pow 2 (b - 0xd4))
  else if b < 0xdc then text (Nat.pow 2 (b - 0xd9))
  else if b < 0xde then array (Nat.pow 2 (b - 0xdb))
  else if b < 0xe0 then map (Nat.pow 2 (b - 0xdd))
  else shortSigned (b - 0x100)

/-- The name of a marker in messages. Widths are told in bits. -/
def name : Marker → String
  | nil => "Null"
  | reserved => "Reserved"
  | bool true => "True"
  | bool false => "False"
  | shortUnsigned n => s!"FixPos({n})"
  | shortSigned i => s!"FixNeg({i})"
  | shortText length => s!"FixStr({length})"
  | shortArray length => s!"FixArray({length})"
  | shortMap length => s!"FixMap({length})"
  | shortExtension length => s!"FixExt{length}"
  | unsigned width => s!"U{8 * width}"
  | signed width => s!"I{8 * width}"
  | float width => s!"F{8 * width}"
  | text width => s!"Str{8 * width}"
  | binary width => s!"Bin{8 * width}"
  | array width => s!"Array{8 * width}"
  | map width => s!"Map{8 * width}"
  | extension width => s!"Ext{8 * width}"

/-- The value is a number. -/
def isNumber : Marker → Bool
  | shortUnsigned _ | shortSigned _ | unsigned _ | signed _ | float _ => true
  | _ => false

end Marker

end DialogScript.MessagePack
