import DialogScript.MessagePack.Decoder

/-!
# Shapes of values

A shape is a kind of value that a document asks for at some place. Texts, natural numbers, variants,
sequences and records each have one; bytes may stand for a text, and for a sequence of numbers.

A record is a map from field names, or from the numbers of the fields, or an array of all fields in
order. A map may hold further fields, which are passed over, but none of the record's own fields
twice. A variant is given by its name or its number, or as the key of a map from it to nothing.

## Main definitions

* `Shape`, with `Shape.text`, `Shape.natural`, `Shape.variant`, `Shape.sequence`, `Shape.record`
* `RecordField`: a field of a record
-/

namespace DialogScript.MessagePack

/-- A kind of value: what it is called in messages, and how it is read, with a bound on the depth of
what lies in it. -/
structure Shape (α : Type) where
  wanted : Wanted
  read : Nat → Decoder α

/-- A field of a record of which `σ` holds the fields that have been read. -/
structure RecordField (σ : Type) where
  name : String
  wanted : Wanted
  /-- The field has been read. -/
  isRead : σ → Bool
  /-- Reads the field. -/
  read : Nat → σ → Decoder σ

/-- A field of some shape, with a way to look it up and one to put it in its place. -/
def RecordField.of {σ α : Type} (name : String) (shape : Shape α) (value? : σ → Option α)
    (put : σ → α → σ) : RecordField σ where
  name
  wanted := shape.wanted
  isRead fields := (value? fields).isSome
  read depth fields := do return put fields (← shape.read depth)

/-- The value of a field that has to be there. -/
def required {α : Type} (name : String) : Option α → Except DecodeError α
  | some value => .ok value
  | none => .error (.missingField name)

/-- Reads a given number of values, one after the other. -/
def replicated {α : Type} (d : Decoder α) : Nat → Decoder (List α)
  | 0 => return []
  | n + 1 => do
    let item ← d
    return item :: (← replicated d n)

namespace Shape

/-- A text, or bytes in its place. -/
def text : Shape String where
  wanted := .text
  read depth := do
    match ← head with
    | .text content => utf8 content
    | .binary content =>
      match Utf8.ofBytes? content with
      | some s => return s
      | none => throw (.invalidValue (.binary content) .text)
    | h => h.reject .text depth

/-- A natural number of so many bits. -/
def natural (bits : Nat) : Shape Nat where
  wanted := .natural bits
  read depth := do
    let m ← marker
    unless m.isNumber do throw (.wrongMarker m)
    let h ← m.head
    match h with
    | .unsigned n =>
      if n < Nat.pow 2 bits then return n
      else throw (.invalidValue h (.natural bits))
    | .signed i =>
      if 0 ≤ i ∧ i < Nat.pow 2 bits then return i.toNat
      else throw (.invalidValue h (.natural bits))
    | h => h.reject (.natural bits) depth

/-- The variant that a value names by its name or its number. -/
def named {α : Type} (variants : List (String × α)) (h : Head) (depth : Nat) : Decoder α := do
  let find (content : List UInt8) : Decoder α :=
    match variants.find? (Utf8.toBytes ·.1 = content) with
    | some (_, value) => return value
    | none =>
      throw (.unknownVariant (String.ofList (Utf8.decodeLossy content)) (variants.map (·.1)))
  match h with
  | .text content =>
    discard (utf8 content)
    find content
  | .binary content => find content
  | .unsigned n =>
    match variants[n]? with
    | some (_, value) => return value
    | none => throw (.invalidValue h (.variantNumber variants.length))
  | h => h.reject .variantName depth

/-- One of some variants of a type. -/
def variant {α : Type} (type : String) (variants : List (String × α)) : Shape α where
  wanted := .variant type
  read depth := do
    match ← head with
    | .map 1 =>
      let value ← named variants (← head) depth
      let m ← marker
      if m = .nil then return value else throw (.wrongMarker m)
    | .map length => throw (.wrongLength length)
    | h => named variants h depth

/-- Values of one shape, one after the other. -/
def sequence {α : Type} (item : Shape α) : Shape (List α) where
  wanted := .sequence
  read depth := do
    match ← head with
    | .array length => nested (fun depth => replicated (item.read depth) length) depth
    | .binary [] => return []
    | .binary (byte :: _) => throw (.invalidType (.unsigned byte.toNat) item.wanted)
    | h => h.reject .sequence depth

/-- Reads the values of an array into the fields of a record, of which `count` have been read and
`fields` are left. -/
def inOrder {σ : Type} (name : String) (depth count : Nat) :
    (length : Nat) → (fields : List (RecordField σ)) → σ → Decoder σ
  | 0, [], done => return done
  | 0, fields, _ => throw (.tooFew count (.fields name (count + fields.length)))
  | _ + 1, [], _ => throw (.wrongLength count)
  | length + 1, field :: fields, done => do
    inOrder name depth (count + 1) length fields (← field.read depth done)

/-- The field that a key names, if it is one of the record. -/
def keyed {σ : Type} (fields : List (RecordField σ)) (depth : Nat) :
    Decoder (Option (RecordField σ)) := do
  match ← head with
  | .text content => return fields.find? (Utf8.toBytes ·.name = content)
  | .binary content => return fields.find? (Utf8.toBytes ·.name = content)
  | .unsigned n => return fields[n]?
  | h => h.reject .fieldName depth

/-- Reads the pairs of a map into the fields of a record. -/
def byKey {σ : Type} (fields : List (RecordField σ)) (depth : Nat) : (length : Nat) → σ → Decoder σ
  | 0, done => return done
  | length + 1, done => do
    match ← keyed fields depth with
    | none =>
      skip depth
      byKey fields depth length done
    | some field =>
      if field.isRead done then throw (.duplicateField field.name)
      else byKey fields depth length (← field.read depth done)

/-- A record of fields, of which none has been read in `blank`; `finish` gives the record once they
all have. -/
def record {σ α : Type} (name : String) (fields : List (RecordField σ)) (blank : σ)
    (finish : σ → Except DecodeError α) : Shape α where
  wanted := .record name
  read depth := do
    match ← head with
    | .array length =>
      finish (← nested (fun depth => inOrder name depth 0 length fields blank) depth)
    | .map length => finish (← nested (fun depth => byKey fields depth length blank) depth)
    | .binary content =>
      match content, fields with
      | byte :: _, field :: _ => throw (.invalidType (.unsigned byte.toNat) field.wanted)
      | _, _ => throw (.tooFew 0 (.fields name fields.length))
    | h => h.reject (.record name) depth

end Shape

end DialogScript.MessagePack
