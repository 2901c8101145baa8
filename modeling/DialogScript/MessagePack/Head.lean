import DialogScript.MessagePack.Marker
import DialogScript.Number.Shortest
import DialogScript.Text.Quoted
import DialogScript.Text.Utf8

/-!
# Heads of values

The head of a MessagePack value is all of it if the value holds no other values, and otherwise its
kind and its length.

## Main definitions

* `Head`, `Head.describe`: heads, and what they are called in messages
* `Wanted`: what a place in a document asks for
* `DecodeError`: why bytes are not the document asked for
-/

namespace DialogScript.MessagePack

/-- What is known of a value before the values in it are read. -/
inductive Head
  | nil
  | bool (b : Bool)
  /-- A whole number in an encoding for natural numbers. -/
  | unsigned (n : Nat)
  /-- A whole number in an encoding for integers. -/
  | signed (i : Int)
  | float (x : Binary .double)
  /-- A text, by its bytes, which need not be UTF-8. -/
  | text (bytes : List UInt8)
  | binary (bytes : List UInt8)
  | array (length : Nat)
  | map (length : Nat)
  /-- A value of a kind that the format leaves to its users. -/
  | extension (length : Nat)
  deriving DecidableEq, Repr

/-- What a value is called in messages. -/
def Head.describe : Head → String
  | nil => "unit value"
  | bool true => "boolean `true`"
  | bool false => "boolean `false`"
  | unsigned n => s!"integer `{n}`"
  | signed i => s!"integer `{i}`"
  | float x => "floating point `" ++ String.ofList x.pointedText ++ "`"
  | text bytes => "string " ++ String.ofList (Quoted.encode (Utf8.decodeLossy bytes))
  | binary _ => "byte array"
  | array _ => "sequence"
  | map _ => "map"
  | extension _ => "newtype struct"

/-- What a place in a document asks for. -/
inductive Wanted
  | text
  /-- A natural number of so many bits. -/
  | natural (bits : Nat)
  | sequence
  | record (name : String)
  /-- A record of so many fields. -/
  | fields (name : String) (count : Nat)
  /-- A variant of a type. -/
  | variant (type : String)
  | variantName
  /-- The number of one of so many variants. -/
  | variantNumber (count : Nat)
  | fieldName
  deriving DecidableEq, Repr

/-- What is asked for, in messages. -/
def Wanted.describe : Wanted → String
  | text => "a string"
  | natural bits => s!"u{bits}"
  | sequence => "a sequence"
  | record name => s!"struct {name}"
  | fields name 1 => s!"struct {name} with 1 element"
  | fields name count => s!"struct {name} with {count} elements"
  | variant type => s!"enum {type}"
  | variantName => "variant identifier"
  | variantNumber count => s!"variant index 0 <= i < {count}"
  | fieldName => "field identifier"

/-- Why bytes are not the document asked for. -/
inductive DecodeError
  /-- The bytes end where a marker should stand. -/
  | missingMarker
  /-- The bytes end inside a number. -/
  | missingNumber
  /-- The bytes end inside a text or other content. -/
  | missingContent
  /-- A marker that may not stand at its place. -/
  | wrongMarker (m : Marker)
  /-- Values nest too deeply. -/
  | tooDeep
  /-- A text that is not UTF-8. -/
  | invalidText (fault : Utf8.Fault)
  /-- A value of another kind than what is asked for. -/
  | invalidType (found : Head) (wanted : Wanted)
  /-- A value of the right kind that is not one of those asked for. -/
  | invalidValue (found : Head) (wanted : Wanted)
  /-- Too few values in a record. -/
  | tooFew (length : Nat) (wanted : Wanted)
  /-- More values than the given number. -/
  | wrongLength (length : Nat)
  | missingField (name : String)
  | duplicateField (name : String)
  /-- A name that none of the given variants has. -/
  | unknownVariant (name : String) (names : List String)
  deriving DecidableEq, Repr

/-- The text that tells the error. -/
def DecodeError.message : DecodeError → String
  | missingMarker => "IO error while reading marker: failed to fill whole buffer"
  | missingNumber => "IO error while reading data: failed to fill whole buffer"
  | missingContent => "IO error while reading data: unexpected end of file"
  | wrongMarker m => s!"wrong msgpack marker {m.name}"
  | tooDeep => "depth limit exceeded"
  | invalidText fault => s!"string found to be invalid utf8: {fault.message}"
  | invalidType found wanted => s!"invalid type: {found.describe}, expected {wanted.describe}"
  | invalidValue found wanted => s!"invalid value: {found.describe}, expected {wanted.describe}"
  | tooFew length wanted => s!"invalid length {length}, expected {wanted.describe}"
  | wrongLength length => s!"array had incorrect length, expected {length}"
  | missingField name => s!"missing field `{name}`"
  | duplicateField name => s!"duplicate field `{name}`"
  | unknownVariant name names =>
    s!"unknown variant `{name}`, expected one of " ++
      String.intercalate ", " (names.map fun name => s!"`{name}`")

end DialogScript.MessagePack
