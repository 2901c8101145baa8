import DialogScript.Error
import DialogScript.Log
import DialogScript.MessagePack.Encoding
import DialogScript.MessagePack.Shape

/-!
# Snapshots of the condition log

A log is kept between runs as one MessagePack value: a record with an array of entries, each a
record of the scope by name, the actor, the dialog and the line. Bytes after the value are passed
over.

## Main definitions

* `Log.toBytes`, `Log.ofBytes`
* `Log.ofSaved`: the log in the content of a file
-/

namespace DialogScript

open MessagePack

namespace Scope

/-- The name of a scope in a snapshot. -/
def snapshotName : Scope → String
  | once => "Once"
  | showOnce => "ShowOnce"
  | onceEver => "OnceEver"
  | tempOnce => "TempOnce"

/-- All scopes in the order of their numbers in a snapshot. -/
def all : List Scope := [once, showOnce, onceEver, tempOnce]

/-- Every scope is one of all scopes. -/
theorem mem_all (s : Scope) : s ∈ all := by cases s <;> decide

/-- The scope of an entry. -/
def shape : Shape Scope := .variant "ConditionMode" (all.map fun s => (s.snapshotName, s))

end Scope

/-- A text in a snapshot. -/
def snapshotText (s : String) : List UInt8 := textBytes (Utf8.toBytes s)

namespace Entry

/-- The bytes of an entry. -/
def toBytes (e : Entry) : List UInt8 :=
  mapHeader 4 ++ snapshotText "mode" ++ snapshotText e.scope.snapshotName ++
    snapshotText "actor_key" ++ snapshotText e.site.actor ++
    snapshotText "dialog" ++ snapshotText e.site.dialog ++
    snapshotText "line" ++ unsignedBytes e.site.line.toNat

/-- The fields of an entry, as far as they have been read. -/
structure Draft where
  scope : Option Scope := none
  actor : Option String := none
  dialog : Option String := none
  line : Option Nat := none

/-- The fields of an entry in their order. -/
def fields : List (RecordField Draft) :=
  [.of "mode" Scope.shape (·.scope) fun d scope => { d with scope },
   .of "actor_key" .text (·.actor) fun d actor => { d with actor },
   .of "dialog" .text (·.dialog) fun d dialog => { d with dialog },
   .of "line" (.natural 32) (·.line) fun d line => { d with line }]

/-- The entry with the fields that have been read. -/
def ofDraft (d : Draft) : Except DecodeError Entry := do
  let scope ← required "mode" d.scope
  let actor ← required "actor_key" d.actor
  let dialog ← required "dialog" d.dialog
  let line ← required "line" d.line
  return ⟨scope, ⟨actor, dialog, UInt32.ofNat line⟩⟩

/-- An entry. -/
def shape : Shape Entry := .record "DialogConditionState" fields {} ofDraft

end Entry

namespace Log

/-- The bytes of a log. -/
def toBytes (log : Log) : List UInt8 :=
  mapHeader 1 ++ snapshotText "entries" ++ arrayHeader log.entries.length ++
    log.entries.flatMap Entry.toBytes

/-- A log. Its entries are taken as they stand. -/
def shape : Shape Log :=
  .record "ConditionLog" [.of "entries" (.sequence Entry.shape) id fun _ entries => some entries]
    none fun entries => do return ⟨← required "entries" entries⟩

/-- The log at the front of some bytes. -/
def ofBytes (bytes : List UInt8) : Except DecodeError Log :=
  (shape.read maxDepth bytes).map (·.1)

/-- The log in the content of a file. -/
def ofSaved (content : List UInt8) : Except Error Log :=
  (ofBytes content).mapError fun e => { kind := .serialization e.message }

end Log

end DialogScript
