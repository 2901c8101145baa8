import DialogScript.Script

/-!
# The condition log

The log remembers which once-family conditions have fired: an entry names the scope of a condition
and its site, that is the actor and the dialog of the session and the source line. The log is an
ordered set: an entry that is present is not added again.

## Main definitions

* `Site`, `Entry`, `Entry.matches`
* `Log`, `Log.record`, `Log.extend`, `Log.ofList`, `Log.contains`, `Log.purgeTempOnce`
-/

namespace DialogScript

/-- Where a condition fires: in a session of an actor and a dialog, on a source line. -/
structure Site where
  actor : String
  dialog : String
  line : UInt32
  deriving DecidableEq, Repr

/-- A condition that has fired. -/
structure Entry where
  scope : Scope
  site : Site
  deriving DecidableEq, Repr

/-- The entry bars the scope at the site. For the scope `onceEver` the actor does not matter. -/
def Entry.matches (e : Entry) (scope : Scope) (site : Site) : Bool :=
  e.scope = scope && e.site.dialog = site.dialog && e.site.line = site.line &&
    (scope = .onceEver || e.site.actor = site.actor)

/-- The conditions that have fired, in the order in which they first did. -/
structure Log where
  entries : List Entry := []
  deriving DecidableEq, Repr, Inhabited

namespace Log

/-- The log without entries. -/
def empty : Log := {}

/-- The number of entries. -/
def size (log : Log) : Nat := log.entries.length

/-- Whether an entry was new, and the log with it. -/
def record (log : Log) (e : Entry) : Bool × Log :=
  if e ∈ log.entries then (false, log) else (true, ⟨log.entries ++ [e]⟩)

/-- The log with an entry. -/
def insert (log : Log) (e : Entry) : Log := (log.record e).2

/-- The log with further entries, one after the other. -/
def extend (log : Log) (es : List Entry) : Log := es.foldl insert log

/-- The log of some entries. -/
def ofList (es : List Entry) : Log := empty.extend es

/-- An entry of the log bars the scope at the site. -/
def contains (log : Log) (scope : Scope) (site : Site) : Bool :=
  log.entries.any (·.matches scope site)

/-- The log without what is forgotten between sessions. -/
def purgeTempOnce (log : Log) : Log := ⟨log.entries.filter (·.scope ≠ .tempOnce)⟩

theorem insert_of_mem {log : Log} {e : Entry} (h : e ∈ log.entries) : log.insert e = log := by
  simp [insert, record, h]

theorem entries_insert_of_not_mem {log : Log} {e : Entry} (h : e ∉ log.entries) :
    (log.insert e).entries = log.entries ++ [e] := by
  simp [insert, record, h]

end Log

end DialogScript
