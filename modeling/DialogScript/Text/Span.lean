import DialogScript.Text.Position

/-!
# Spans

A span is a range of byte offsets. It has a text in a source only if it lies inside the source,
runs forwards and cuts no character in two.
-/

namespace DialogScript

/-- The bytes from `start` up to, not including, `stop`. -/
structure Span where
  start : Nat := 0
  stop : Nat := 0
  deriving DecidableEq, Repr, Inhabited

namespace Span

/-- The span of no bytes at the offset `o`. -/
def empty (o : Nat) : Span := ⟨o, o⟩

/-- The text that a span covers in a source, if it covers one. -/
def text? (source : List Char) (span : Span) : Option (List Char) :=
  let before := upTo source span.start
  let covered := upTo (startingAt source span.start) (span.stop - span.start)
  if span.start ≤ span.stop ∧ utf8Length before = span.start ∧
      utf8Length covered = span.stop - span.start then some covered
  else none

end Span

end DialogScript
