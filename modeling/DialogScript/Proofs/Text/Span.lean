import DialogScript.Text.Span
import Mathlib.Data.List.Basic

/-!
# Spans as parts of a text

A span has a text exactly if the source falls into three parts, the text before the span, the text
of the span and the text after it, whose lengths are what the offsets of the span say. So to know
the text of a span is to know that neither of its offsets cuts a character.

## Main results

* `upTo_append_utf8Length`, `startingAt_append_utf8Length`: where a part ends, the text is parted in
  two
* `Span.text?_eq_some_iff`: the text of a span is what stands between its offsets
* `Span.isBoundary_of_text?`: the offsets of a span with a text are boundaries
-/

namespace DialogScript

/-- The text up to the end of its first part is that part. -/
@[simp]
theorem upTo_append_utf8Length (cs ds : List Char) : upTo (cs ++ ds) (utf8Length cs) = cs := by
  induction cs with
  | nil => cases ds <;> rfl
  | cons c cs ih =>
      obtain ⟨o, ho⟩ := Nat.exists_eq_succ_of_ne_zero
        (Nat.ne_of_gt (Nat.add_pos_left c.utf8Size_pos (utf8Length cs)))
      have hrest : o + 1 - c.utf8Size = utf8Length cs := by omega
      rw [utf8Length, ho, List.cons_append, upTo, hrest, ih]

/-- The text from the end of its first part on is what stands behind that part. -/
@[simp]
theorem startingAt_append_utf8Length (cs ds : List Char) :
    startingAt (cs ++ ds) (utf8Length cs) = ds := by
  have hparts := upTo_append_startingAt (cs ++ ds) (utf8Length cs)
  rw [upTo_append_utf8Length] at hparts
  exact List.append_cancel_left hparts

/-- A text without characters has no bytes, and no other text has none. -/
theorem utf8Length_eq_zero {cs : List Char} : utf8Length cs = 0 ↔ cs = [] := by
  cases cs with
  | nil => simp [utf8Length]
  | cons c cs => simp [utf8Length, Nat.ne_of_gt c.utf8Size_pos]

/-- The end of a part is a boundary. -/
theorem isBoundary_append (cs ds : List Char) : IsBoundary (cs ++ ds) (utf8Length cs) := by
  rw [IsBoundary, upTo_append_utf8Length, utf8Length_append]
  omega

namespace Span

variable {source x : List Char} {span : Span}

/-- The text of a span is what stands between its offsets. -/
theorem text?_eq_some_iff : span.text? source = some x ↔
    ∃ before after, source = before ++ (x ++ after) ∧ span.start = utf8Length before ∧
      span.stop = span.start + utf8Length x := by
  constructor
  · intro htext
    rw [text?] at htext
    split at htext
    · rename_i hspan
      obtain ⟨hle, hstart, hstop⟩ := hspan
      obtain rfl := Option.some.inj htext
      refine ⟨upTo source span.start,
        startingAt (startingAt source span.start) (span.stop - span.start), ?_, hstart.symm,
        by omega⟩
      rw [upTo_append_startingAt, upTo_append_startingAt]
    · cases htext
  · rintro ⟨before, after, rfl, hstart, hstop⟩
    have hlength : span.stop - span.start = utf8Length x := by omega
    rw [text?, hlength, hstart, upTo_append_utf8Length, startingAt_append_utf8Length,
      upTo_append_utf8Length, if_pos ⟨by omega, rfl, rfl⟩]

/-- A span with a text that starts where a part of the source ends covers the beginning of the rest
of the source. -/
theorem exists_of_text?_append {before cs : List Char} (hstart : span.start = utf8Length before)
    (htext : span.text? (before ++ cs) = some x) :
    ∃ after, cs = x ++ after ∧ span.stop = utf8Length (before ++ x) := by
  obtain ⟨before', after, hsource, hstart', hstop⟩ := text?_eq_some_iff.mp htext
  obtain rfl : before = before' := by
    rw [← upTo_append_utf8Length before cs, hsource, ← hstart, hstart', upTo_append_utf8Length]
  exact ⟨after, List.append_cancel_left hsource, by rw [hstop, hstart, utf8Length_append]⟩

/-- The offsets of a span with a text lie in the source, in order, and cut no character. -/
theorem isBoundary_of_text? (htext : span.text? source = some x) :
    IsBoundary source span.start ∧ IsBoundary source span.stop ∧
      span.stop ≤ utf8Length source := by
  obtain ⟨before, after, rfl, hstart, hstop⟩ := text?_eq_some_iff.mp htext
  have hstop' : span.stop = utf8Length (before ++ x) := by
    rw [utf8Length_append]
    omega
  refine ⟨hstart ▸ isBoundary_append before _, ?_, ?_⟩
  · rw [hstop', ← List.append_assoc]
    exact isBoundary_append _ after
  · rw [utf8Length_append, utf8Length_append]
    omega

end Span

end DialogScript
