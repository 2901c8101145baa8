import DialogScript.Proofs.Text.Line
import Mathlib.Data.List.TakeWhile

/-!
# The line around an offset

An offset parts a text in two, even where it cuts a character: the character then counts to the part
before. What stands behind the last line feed before the offset and what stands before the next one
make up the line around it, and the line feeds before it number the line. Where the offset cuts no
character, the text from the beginning of the line up to it tells the column; so the line and the
column together tell the offset.

## Main definitions

* `IsLine`: a part of a list that is one of its lines

## Main results

* `exists_isLine_append`: the line around the end of a part
* `exists_isLine_around`: the line around an offset
* `columnAt?_eq_map`: the column counts the characters from the beginning of the line
* `eq_of_position_eq`: different boundaries have different positions
-/

namespace DialogScript

/-! ### Lines -/

/-- `line` is a line of `whole`, in which the lines end with `feed`: it holds none, one stands last
in `before` if anything does, and one stands first in `after` if anything does. -/
structure IsLine {α : Type} (feed : α) (whole before line after : List α) : Prop where
  parts : whole = before ++ (line ++ after)
  begins : ∀ c ∈ before.getLast?, c = feed
  within : feed ∉ line
  ends : ∀ c ∈ after.head?, c = feed

theorem head?_dropWhile_ne {cs : List Char} {c : Char}
    (hc : c ∈ (cs.dropWhile (· ≠ '\n')).head?) : c = '\n' := by
  have hstop := List.head?_dropWhile_not (p := (· ≠ '\n')) cs
  rw [Option.mem_def.mp hc] at hstop
  simpa using hstop

theorem feed_not_mem_takeWhile (cs : List Char) : '\n' ∉ cs.takeWhile (· ≠ '\n') := fun hmem => by
  simpa using List.mem_takeWhile_imp hmem

/-- The last line of a text stands behind its other lines. -/
theorem exists_eq_append_lastLine (cs : List Char) :
    ∃ before, cs = before ++ lastLine cs ∧ EndsLine before := by
  refine ⟨(cs.reverse.dropWhile (· ≠ '\n')).reverse, ?_, fun c hc => ?_⟩
  · rw [lastLine, ← List.reverse_append, List.takeWhile_append_dropWhile, List.reverse_reverse]
  · rw [List.getLast?_reverse] at hc
    exact head?_dropWhile_ne hc

theorem feed_not_mem_lastLine (cs : List Char) : '\n' ∉ lastLine cs := fun hmem =>
  feed_not_mem_takeWhile _ (List.mem_reverse.mp hmem)

/-- The line around the end of a part. -/
theorem exists_isLine_append (cs ds : List Char) :
    ∃ before after, cs = before ++ lastLine cs ∧
      IsLine '\n' (cs ++ ds) before (lastLine cs ++ firstLine ds) after := by
  obtain ⟨before, hcs, hbegins⟩ := exists_eq_append_lastLine cs
  refine ⟨before, ds.dropWhile (· ≠ '\n'), hcs, ?_, hbegins, ?_, fun c hc => head?_dropWhile_ne hc⟩
  · rw [firstLine, List.append_assoc, List.takeWhile_append_dropWhile, ← List.append_assoc, ← hcs]
  · exact fun hmem => (List.mem_append.mp hmem).elim (feed_not_mem_lastLine cs)
      (feed_not_mem_takeWhile ds)

/-! ### Offsets -/

theorem upTo_of_le {cs : List Char} {o : Nat} (ho : utf8Length cs ≤ o) : upTo cs o = cs := by
  obtain ⟨k, rfl⟩ := Nat.exists_eq_add_of_le ho
  have hwhole := upTo_append_add cs [] k
  rwa [List.append_nil, upTo, List.append_nil] at hwhole

/-- The characters that begin before an offset reach as far as the offset. -/
theorem min_le_utf8Length_upTo (cs : List Char) (o : Nat) :
    min o (utf8Length cs) ≤ utf8Length (upTo cs o) := by
  induction cs generalizing o with
  | nil => exact Nat.min_le_right o 0
  | cons c cs ih =>
      cases o with
      | zero => exact Nat.min_le_left 0 _
      | succ o =>
          have hrest := ih (o + 1 - c.utf8Size)
          rw [upTo, utf8Length, utf8Length]
          omega

/-- Each of them begins before it. -/
theorem utf8Length_lt_of_upTo {cs xs ys : List Char} {c : Char} {o : Nat}
    (hparts : upTo cs o = xs ++ c :: ys) : utf8Length xs < o := by
  induction xs generalizing cs o with
  | nil =>
      cases o with
      | zero => cases cs <;> cases hparts
      | succ o => exact Nat.succ_pos o
  | cons x xs ih =>
      cases cs with
      | nil => cases hparts
      | cons d cs =>
          cases o with
          | zero => cases hparts
          | succ o =>
              obtain ⟨rfl, hrest⟩ := List.cons.inj hparts
              have hlt := ih hrest
              rw [utf8Length]
              omega

/-- An offset falls between two characters if it is the length of a first part. -/
theorem isBoundary_iff {cs : List Char} {o : Nat} :
    IsBoundary cs o ↔
      ∃ before after, cs = before ++ after ∧ utf8Length before = min o (utf8Length cs) := by
  constructor
  · exact fun h => ⟨_, _, (upTo_append_startingAt cs o).symm, h⟩
  · rintro ⟨before, after, rfl, hlength⟩
    rcases Nat.le_total o (utf8Length (before ++ after)) with ho | ho
    · rw [Nat.min_eq_left ho] at hlength
      exact hlength ▸ isBoundary_append before after
    · rw [IsBoundary, upTo_of_le ho, Nat.min_eq_right ho]

/-- The line around an offset. -/
theorem exists_isLine_around (source : List Char) (o : Nat) :
    ∃ before after, upTo source o = before ++ lastLine (upTo source o) ∧
      IsLine '\n' source before (lineTextAt source o) after ∧
      utf8Length before ≤ min o (utf8Length source) ∧
      min o (utf8Length source) ≤ utf8Length before + utf8Length (lineTextAt source o) := by
  obtain ⟨before, after, hbefore, hline⟩ :=
    exists_isLine_append (upTo source o) (startingAt source o)
  rw [upTo_append_startingAt] at hline
  refine ⟨before, after, hbefore, hline, Nat.le_min.mpr ⟨?_, ?_⟩, ?_⟩
  · rcases List.eq_nil_or_concat before with rfl | ⟨init, c, rfl⟩
    · exact Nat.zero_le o
    · -- The line feed in front of the line begins before the offset, and has one byte.
      obtain rfl : c = '\n' := hline.begins c (by simp)
      rw [List.concat_eq_append, List.append_assoc, List.singleton_append] at hbefore
      have hlt := utf8Length_lt_of_upTo hbefore
      rw [List.concat_eq_append, utf8Length_append]
      exact hlt
  · have hlength := congrArg utf8Length hline.parts
    rw [utf8Length_append] at hlength
    omega
  · have hreach := min_le_utf8Length_upTo source o
    rw [hbefore, utf8Length_append] at hreach
    rw [lineTextAt, utf8Length_append]
    omega

/-- The column counts the characters between the beginning of the line and the offset, which is
possible if the offset cuts none of them. -/
theorem columnAt?_eq_map {source before : List Char} {o : Nat}
    (hbefore : upTo source o = before ++ lastLine (upTo source o)) :
    columnAt? source o = (Span.text? source ⟨utf8Length before, min o (utf8Length source)⟩).map
      fun x => saturated (x.length + 1) := by
  by_cases hboundary : IsBoundary source o
  · have htext : Span.text? source ⟨utf8Length before, min o (utf8Length source)⟩ =
        some (lastLine (upTo source o)) := by
      refine Span.text?_eq_some_iff.mpr ⟨before, startingAt source o, ?_, rfl, ?_⟩
      · rw [← List.append_assoc, ← hbefore, upTo_append_startingAt]
      · change min o (utf8Length source) = _
        rw [← utf8Length_append, ← hbefore, hboundary]
    rw [columnAt?, if_pos hboundary, htext]
    rfl
  · have htext : Span.text? source ⟨utf8Length before, min o (utf8Length source)⟩ = none := by
      refine Option.eq_none_iff_forall_ne_some.mpr fun x hx => hboundary ?_
      obtain ⟨before', after, hsource, hstart, hstop⟩ := Span.text?_eq_some_iff.mp hx
      refine isBoundary_iff.mpr ⟨before' ++ x, after, ?_, ?_⟩
      · rw [List.append_assoc, hsource]
      · rw [utf8Length_append, ← hstart]
        exact hstop.symm
    rw [columnAt?, if_neg hboundary, htext]
    rfl

theorem columnAt?_eq_none_iff {source : List Char} {o : Nat} :
    columnAt? source o = none ↔ ¬IsBoundary source o := by
  rw [columnAt?]
  split <;> simp [*]

/-! ### Positions -/

theorem eq_of_saturated_eq {n m : Nat} (heq : saturated n = saturated m)
    (hbelow : (saturated n).toNat < 4294967295) : n = m := by
  have hnat := congrArg UInt32.toNat heq
  rw [toNat_saturated] at hbelow
  rw [toNat_saturated, toNat_saturated] at hnat
  omega

/-- Characters other than line feeds go on with the last line. -/
theorem lastLine_append_of_not_mem (cs : List Char) {ds : List Char} (hds : '\n' ∉ ds) :
    lastLine (cs ++ ds) = lastLine cs ++ ds := by
  have hall : ∀ c ∈ ds.reverse, decide (c ≠ '\n') = true := fun c hc =>
    decide_eq_true fun heq => hds (heq ▸ List.mem_reverse.mp hc)
  rw [lastLine, lastLine, List.reverse_append, List.takeWhile_append_of_pos hall,
    List.reverse_append, List.reverse_reverse]

theorem length_lastLine_lt {cs ds : List Char} (hne : ds ≠ [])
    (hcount : cs.count '\n' = (cs ++ ds).count '\n') :
    (lastLine cs).length < (lastLine (cs ++ ds)).length := by
  have hds : '\n' ∉ ds := by
    rw [List.count_append] at hcount
    exact List.count_eq_zero.mp (by omega)
  rw [lastLine_append_of_not_mem cs hds, List.length_append]
  have hpos := List.length_pos_iff.mpr hne
  omega

theorem of_columnAt?_eq_some {source : List Char} {o : Nat} {c : UInt32}
    (hcolumn : columnAt? source o = some c) :
    IsBoundary source o ∧ c = saturated ((lastLine (upTo source o)).length + 1) := by
  rw [columnAt?] at hcolumn
  split at hcolumn
  · exact ⟨‹_›, (Option.some.inj hcolumn).symm⟩
  · cases hcolumn

/-- A boundary with the same position as another does not come behind it. -/
theorem le_of_position_eq {source : List Char} {o o' : Nat} {c : UInt32}
    (ho' : o' ≤ utf8Length source) (hline : lineAt source o = lineAt source o')
    (hlow : (lineAt source o).toNat < 4294967295) (hcolumn : columnAt? source o = some c)
    (hcolumn' : columnAt? source o' = some c) (hleft : c.toNat < 4294967295) : o' ≤ o := by
  by_contra hlt
  obtain ⟨k, rfl⟩ := Nat.exists_eq_add_of_lt (Nat.lt_of_not_le hlt)
  obtain ⟨hboundary, hc⟩ := of_columnAt?_eq_some hcolumn
  obtain ⟨hboundary', hc'⟩ := of_columnAt?_eq_some hcolumn'
  have hlength : utf8Length (upTo source o) = o := by rw [hboundary]; omega
  -- The text before the later offset is that before the other one, and something behind that.
  have hmore : upTo source (o + k + 1) = upTo source o ++ upTo (startingAt source o) (k + 1) := by
    have happend := upTo_append_add (upTo source o) (startingAt source o) (k + 1)
    rwa [upTo_append_startingAt, hlength, ← Nat.add_assoc] at happend
  have hne : upTo (startingAt source o) (k + 1) ≠ [] := fun hnil => by
    rw [hnil, List.append_nil] at hmore
    rw [IsBoundary, hmore, hlength] at hboundary'
    omega
  have hcount : (upTo source o).count '\n' =
      (upTo source o ++ upTo (startingAt source o) (k + 1)).count '\n' := by
    have heq := eq_of_saturated_eq hline hlow
    rw [hmore] at heq
    omega
  have hcolumns := eq_of_saturated_eq (hc.symm.trans hc') (hc ▸ hleft)
  rw [hmore] at hcolumns
  have hlonger := length_lastLine_lt hne hcount
  omega

/-- Different boundaries have different positions, unless these are the largest there are. -/
theorem eq_of_position_eq {source : List Char} {o o' : Nat} {c : UInt32}
    (ho : o ≤ utf8Length source) (ho' : o' ≤ utf8Length source)
    (hline : lineAt source o = lineAt source o') (hlow : (lineAt source o).toNat < 4294967295)
    (hcolumn : columnAt? source o = some c) (hcolumn' : columnAt? source o' = some c)
    (hleft : c.toNat < 4294967295) : o = o' :=
  Nat.le_antisymm (le_of_position_eq ho hline.symm (hline ▸ hlow) hcolumn' hcolumn hleft)
    (le_of_position_eq ho' hline hlow hcolumn hcolumn' hleft)

end DialogScript
