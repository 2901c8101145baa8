import DialogScript.Proofs.Text.Bytes
import DialogScript.Proofs.Token.Tiling

/-!
# The line index of a reader

A reader indexes the line starts of what it has scanned, once: where a move goes back, or over the
same part again, it adds nothing. What has been scanned is always the beginning of the source, and
its index is exact. So the index together with the line feeds behind that part tell the line of
every offset, and what a reader answers does not depend on how far it has read.

## Main definitions

* `Reader.Move`, `Reader.moved`, `Reader.answers`: moves of a reader, and what they give
* `Reader.Indexed`: the index is exact
* `Reader.Locates`: what a reader tells of an offset is what the bytes of the source tell

## Main results

* `Reader.Indexed.pass`, `Reader.indexed_moved`: every move keeps the index exact
* `Reader.Indexed.lineOf_eq`: the line of an offset does not depend on the index
* `Reader.positions_exact`: positions after any moves, and what is read after a reset
-/

namespace DialogScript

namespace Reader

/-! ### Line starts -/

theorem startsAfterFeeds_append (o : Nat) (cs ds : List Char) :
    startsAfterFeeds o (cs ++ ds) =
      startsAfterFeeds o cs ++ startsAfterFeeds (o + utf8Length cs) ds := by
  induction cs generalizing o with
  | nil => rfl
  | cons c cs ih =>
      have hrest := ih (o + c.utf8Size)
      rw [Nat.add_assoc] at hrest
      rw [List.cons_append, startsAfterFeeds, startsAfterFeeds, utf8Length, hrest]
      split <;> rfl

/-- The line starts of a text lie in it. -/
theorem mem_startsAfterFeeds {o x : Nat} {cs : List Char} (hx : x ∈ startsAfterFeeds o cs) :
    o < x ∧ x ≤ o + utf8Length cs := by
  induction cs generalizing o with
  | nil => cases hx
  | cons c cs ih =>
      have hsize := c.utf8Size_pos
      have hrest (hx : x ∈ startsAfterFeeds (o + c.utf8Size) cs) :
          o < x ∧ x ≤ o + utf8Length (c :: cs) := by
        obtain ⟨hlow, hhigh⟩ := ih hx
        rw [utf8Length]
        omega
      rw [startsAfterFeeds] at hx
      split at hx
      · rcases List.mem_cons.mp hx with rfl | hx
        · rw [utf8Length]
          omega
        · exact hrest hx
      · exact hrest hx

theorem countP_startsAfterFeeds_of_le {k o : Nat} (ho : o ≤ k) (cs : List Char) :
    (startsAfterFeeds k cs).countP (· ≤ o) = 0 := by
  refine List.countP_eq_zero.mpr fun x hx => ?_
  have hlow := (mem_startsAfterFeeds hx).1
  simp only [decide_eq_true_eq]
  omega

theorem countP_cons_le {x o : Nat} (hx : x ≤ o) (xs : List Nat) :
    (x :: xs).countP (· ≤ o) = xs.countP (· ≤ o) + 1 :=
  List.countP_cons_of_pos (decide_eq_true hx)

/-- The line starts up to an offset are as many as the line feeds before it. -/
theorem countP_startsAfterFeeds (k o : Nat) (cs : List Char) :
    (startsAfterFeeds k cs).countP (· ≤ k + o) = (upTo cs o).count '\n' := by
  induction cs generalizing k o with
  | nil => rfl
  | cons c cs ih =>
      cases o with
      | zero =>
          rw [upTo_zero, List.count_nil]
          exact countP_startsAfterFeeds_of_le (Nat.le_refl k) _
      | succ o =>
          have hrest : (startsAfterFeeds (k + c.utf8Size) cs).countP (· ≤ k + (o + 1)) =
              (upTo cs (o + 1 - c.utf8Size)).count '\n' := by
            rcases Nat.le_total c.utf8Size (o + 1) with hsize | hsize
            · rw [← ih (k + c.utf8Size), Nat.add_assoc, Nat.add_sub_cancel' hsize]
            · rw [countP_startsAfterFeeds_of_le (Nat.add_le_add_left hsize k),
                Nat.sub_eq_zero_of_le hsize, upTo_zero, List.count_nil]
          rw [startsAfterFeeds, upTo]
          split
          · rename_i hc
            rw [countP_cons_le (by omega), hrest, hc, List.count_cons_self]
          · rename_i hc
            rw [hrest, List.count_cons_of_ne hc]

/-! ### Moves -/

/-- What can be done with a reader. -/
inductive Move
  | next
  | iterate
  | reset

/-- The token that a move gives, if it gives one, and the reader after it. -/
def move (r : Reader) : Move → Option Lexeme × Reader
  | .next => (some r.next.1, r.next.2)
  | .iterate => (r.iterate.map (·.1), (r.iterate.map (·.2)).getD r)
  | .reset => (none, r.reset)

/-- The reader after some moves. -/
def moved (r : Reader) (ms : List Move) : Reader := ms.foldl (fun r m => (r.move m).2) r

/-- What moves give, one after the other. -/
def answers : Reader → List Move → List (Option Lexeme)
  | _, [] => []
  | r, m :: ms => (r.move m).1 :: answers (r.move m).2 ms

/-- The reader is at some place in the source, it has scanned a beginning of the source that reaches
at least there, and the index holds the line starts in that beginning. -/
structure Indexed (source : List Char) (r : Reader) : Prop where
  source_eq : r.source = source
  ahead : ∃ before, source = before ++ r.ahead ∧ r.offset = utf8Length before
  scanned : ∃ passed rest, source = passed ++ rest ∧ r.scanned = utf8Length passed ∧
    r.lineStarts = 0 :: startsAfterFeeds 0 passed
  offset_le : r.offset ≤ r.scanned

theorem indexed_ofSource (source : List Char) : Indexed source (ofSource source) :=
  ⟨rfl, ⟨[], rfl, rfl⟩, ⟨[], source, rfl, rfl, rfl⟩, Nat.le_refl 0⟩

variable {source : List Char} {r r' : Reader}

/-- The line of an offset does not depend on the index. -/
theorem Indexed.lineOf_eq (h : Indexed source r) (o : Nat) : r.lineOf o = lineAt source o := by
  obtain ⟨passed, rest, hsource, hscanned, hstarts⟩ := h.scanned
  have hindexed : (startsAfterFeeds 0 passed).countP (· ≤ o) = (upTo passed o).count '\n' := by
    rw [← countP_startsAfterFeeds 0, Nat.zero_add]
  rw [lineOf, hstarts, h.source_eq, hsource, hscanned, startingAt_append_utf8Length, lineAt,
    upTo_append, List.count_append, countP_cons_le (Nat.zero_le o), hindexed, Nat.add_right_comm,
    Nat.add_comm _ 1]

/-- The line starts of a part lie no further than where it ends. -/
theorem filter_startsAfterFeeds_of_le {k o : Nat} {cs : List Char} (ho : k + utf8Length cs ≤ o) :
    (startsAfterFeeds k cs).filter (o < ·) = [] := by
  refine List.filter_eq_nil_iff.mpr fun x hx => ?_
  have hhigh := (mem_startsAfterFeeds hx).2
  simp only [decide_eq_true_eq]
  omega

/-- Of the line starts of a part, those behind a beginning of the source that reaches into the part
are the line starts of what is behind that beginning. -/
theorem filter_startsAfterFeeds {before text passed fresh : List Char}
    (hparts : before ++ text = passed ++ fresh) (hle : utf8Length before ≤ utf8Length passed) :
    (startsAfterFeeds (utf8Length before) text).filter (utf8Length passed < ·) =
      startsAfterFeeds (utf8Length passed) fresh := by
  have hsame : startsAfterFeeds 0 before ++ startsAfterFeeds (utf8Length before) text =
      startsAfterFeeds 0 passed ++ startsAfterFeeds (utf8Length passed) fresh := by
    have hboth := congrArg (startsAfterFeeds 0) hparts
    rwa [startsAfterFeeds_append, startsAfterFeeds_append, Nat.zero_add, Nat.zero_add] at hboth
  have hold {cs : List Char} (hcs : utf8Length cs ≤ utf8Length passed) :
      (startsAfterFeeds 0 cs).filter (utf8Length passed < ·) = [] :=
    filter_startsAfterFeeds_of_le (by omega)
  have hfiltered := congrArg (List.filter (utf8Length passed < ·)) hsame
  rw [List.filter_append, List.filter_append, hold hle, hold (Nat.le_refl _), List.nil_append,
    List.nil_append] at hfiltered
  rw [hfiltered, List.filter_eq_self]
  exact fun x hx => decide_eq_true (mem_startsAfterFeeds hx).1

/-- What the scanner has looked past a piece is one bracket at most. -/
theorem exists_overrun (p : Piece) (rest : List Char) :
    ∃ seen after, rest = seen ++ after ∧ utf8Length seen = overrun p rest ∧
      utf8Length seen ≤ 1 ∧ ∀ o, startsAfterFeeds o seen = [] := by
  rw [overrun]
  split
  · rename_i hback
    obtain ⟨after, rfl⟩ : ∃ after, rest = '[' :: after := List.head?_eq_some_iff.mp hback.2
    exact ⟨['['], after, rfl, rfl, Nat.le_refl 1, fun _ => rfl⟩
  · exact ⟨[], rest, rfl, rfl, Nat.zero_le 1, fun _ => rfl⟩

/-- Moving past a piece keeps the index exact. -/
theorem Indexed.pass {p : Piece} {rest : List Char} (h : Indexed source r)
    (hscan : Piece.scan? r.ahead = some (p, rest)) : Indexed source (r.pass p rest) := by
  obtain ⟨before, hsource, hoffset⟩ := h.ahead
  obtain ⟨passed, tail, hpassed, hscanned, hstarts⟩ := h.scanned
  obtain ⟨seen, after, hrest, hseen, hshort, hnone⟩ := exists_overrun p rest
  have hle := h.offset_le
  rw [(Piece.scan?_eq_some hscan).1] at hsource
  have hstop : r.offset + utf8Length p.text = utf8Length (before ++ p.text) := by
    rw [hoffset, utf8Length_append]
  refine ⟨h.source_eq, ⟨before ++ p.text, by rw [hsource, List.append_assoc]; rfl, hstop⟩, ?_,
    Nat.le_trans (Nat.le_add_right _ _) (Nat.le_max_right _ _)⟩
  simp only [Reader.pass, hscanned, hoffset, hstarts, ← hseen, ← utf8Length_append]
  have hwhole : passed ++ tail = (before ++ p.text) ++ rest := by
    rw [← hpassed, hsource, List.append_assoc]
  by_cases hnew : utf8Length passed ≤ utf8Length (before ++ p.text)
  · -- The piece reaches beyond what has been scanned, or to where that ends.
    obtain ⟨fresh, hfresh⟩ := exists_eq_append_of_le hwhole hnew
    refine ⟨before ++ p.text ++ seen, after, ?_, ?_, ?_⟩
    · rw [hsource, hrest]
      simp only [List.append_assoc]
    · refine Nat.max_eq_right ?_
      rw [utf8Length_append _ seen]
      omega
    · rw [filter_startsAfterFeeds hfresh (by omega), startsAfterFeeds_append, hnone,
        List.append_nil, hfresh, startsAfterFeeds_append, Nat.zero_add, List.cons_append]
  · -- The reader goes over what has been scanned already, the bracket included.
    rw [utf8Length_append] at hnew
    rw [filter_startsAfterFeeds_of_le (by omega), List.append_nil]
    refine ⟨passed, tail, hpassed, Nat.max_eq_left ?_, rfl⟩
    rw [utf8Length_append, utf8Length_append]
    omega

/-! ### After any moves -/

theorem Indexed.next (h : Indexed source r) : Indexed source r.next.2 := by
  cases hscan : Piece.scan? r.ahead with
  | none => rwa [next_of_none hscan]
  | some found =>
      rw [next_of_some hscan]
      exact h.pass hscan

/-- That the iteration is over does not concern the index. -/
theorem Indexed.withFinished (h : Indexed source r) (finished : Bool) :
    Indexed source { r with finished } :=
  ⟨h.source_eq, h.ahead, h.scanned, h.offset_le⟩

theorem Indexed.reset (h : Indexed source r) : Indexed source r.reset :=
  ⟨h.source_eq, ⟨[], h.source_eq.symm, rfl⟩, h.scanned, Nat.zero_le _⟩

/-- What an iteration gives that is not over, and the reader behind it. -/
theorem move_iterate_of_not (hr : r.finished = false) :
    r.move .iterate = (some r.next.1,
      { r.next.2 with finished := decide (r.next.1.kind = .endOfInput) || r.next.2.finished }) := by
  cases hscan : Piece.scan? r.ahead with
  | none =>
      rw [Reader.move, iterate_of_none hr hscan, next_of_none hscan]
      rfl
  | some found =>
      rw [Reader.move, iterate_of_some hr hscan, next_of_some hscan,
        decide_eq_false (Piece.kind_ne_endOfInput hscan)]
      rfl

theorem move_iterate_of_finished (hr : r.finished = true) : r.move .iterate = (none, r) := by
  rw [Reader.move, iterate, if_pos hr]
  rfl

/-- Every move keeps the index exact. -/
theorem Indexed.move (h : Indexed source r) (m : Move) : Indexed source (r.move m).2 := by
  cases m with
  | next => exact h.next
  | reset => exact h.reset
  | iterate =>
      cases hr : r.finished with
      | true => rwa [move_iterate_of_finished hr]
      | false =>
          rw [move_iterate_of_not hr]
          exact h.next.withFinished _

theorem indexed_moved (h : Indexed source r) (ms : List Move) : Indexed source (r.moved ms) := by
  induction ms generalizing r with
  | nil => exact h
  | cons m ms ih => exact ih (h.move m)

/-- Two readers of a source that are at the same place, whatever they have scanned. -/
structure Level (source : List Char) (r r' : Reader) : Prop where
  left : Indexed source r
  right : Indexed source r'
  offset : r.offset = r'.offset
  ahead : r.ahead = r'.ahead
  finished : r.finished = r'.finished

/-- Readers at the same place give the same token, and are at the same place after it. -/
theorem Level.next (h : Level source r r') :
    r.next.1 = r'.next.1 ∧ Level source r.next.2 r'.next.2 := by
  cases hscan : Piece.scan? r.ahead with
  | none =>
      rw [next_of_none hscan, next_of_none (h.ahead ▸ hscan), h.left.lineOf_eq, h.right.lineOf_eq,
        h.offset]
      exact ⟨rfl, h⟩
  | some found =>
      have hleft := h.left.pass hscan
      have hright := h.right.pass (h.ahead ▸ hscan)
      rw [next_of_some hscan, next_of_some (h.ahead ▸ hscan), hleft.lineOf_eq, hright.lineOf_eq,
        h.offset]
      exact ⟨rfl, hleft, hright, congrArg (· + _) h.offset, rfl, h.finished⟩

theorem Level.move (h : Level source r r') (m : Move) :
    (r.move m).1 = (r'.move m).1 ∧ Level source (r.move m).2 (r'.move m).2 := by
  obtain ⟨htoken, hnext⟩ := h.next
  cases m with
  | next => exact ⟨congrArg some htoken, hnext⟩
  | reset =>
      exact ⟨rfl, h.left.reset, h.right.reset, rfl,
        h.left.source_eq.trans h.right.source_eq.symm, rfl⟩
  | iterate =>
      cases hr : r.finished with
      | true =>
          rw [move_iterate_of_finished hr, move_iterate_of_finished (h.finished ▸ hr)]
          exact ⟨rfl, h⟩
      | false =>
          rw [move_iterate_of_not hr, move_iterate_of_not (h.finished ▸ hr), htoken, hnext.finished]
          exact ⟨rfl, hnext.left.withFinished _, hnext.right.withFinished _, hnext.offset,
            hnext.ahead, rfl⟩

theorem Level.answers_eq (h : Level source r r') (ms : List Move) :
    r.answers ms = r'.answers ms := by
  induction ms generalizing r r' with
  | nil => rfl
  | cons m ms ih =>
      obtain ⟨htoken, hafter⟩ := h.move m
      rw [answers, answers, htoken, ih hafter]

/-- What the reader tells of the offset `o` is what the bytes of the source tell: the line is
numbered by the line feeds before the offset, its text lies between those around the offset, and the
column counts the characters from the beginning of the line, if the offset cuts none. -/
structure Locates (source : List Char) (r : Reader) (o : Nat) : Prop where
  line : (r.lineOf o).toNat = min 4294967295 (1 + ((bytesOf source).take o).count 10)
  around : ∃ before line after, IsLine 10 (bytesOf source) before line after ∧
    before.length ≤ min o (bytesOf source).length ∧
    min o (bytesOf source).length ≤ before.length + line.length ∧
    Span.text? source ⟨before.length, before.length + line.length⟩ = some (r.lineText o) ∧
    (r.columnOf? o).map UInt32.toNat =
      (Span.text? source ⟨before.length, min o (bytesOf source).length⟩).map
        fun x => min 4294967295 (x.length + 1)
  column : r.columnOf? o = none ↔
    ¬∃ before after, source = before ++ after ∧
      (bytesOf before).length = min o (bytesOf source).length

/-- Positions do not depend on the index. -/
theorem Indexed.locates (h : Indexed source r) (o : Nat) : Locates source r o := by
  have hcolumn : r.columnOf? o = columnAt? source o := by rw [columnOf?, h.source_eq]
  have htext : r.lineText o = lineTextAt source o := by rw [lineText, h.source_eq]
  obtain ⟨before, line, after, hline, hstart, hstop, hspan, hmap⟩ := exists_bytes_around source o
  refine ⟨?_, ⟨before, line, after, hline, hstart, hstop, htext ▸ hspan, ?_⟩, ?_⟩
  · rw [h.lineOf_eq, lineAt, toNat_saturated, count_take_bytesOf, Nat.min_comm]
  · rw [hcolumn, hmap, Option.map_map]
    exact congrArg (Option.map · _) (funext fun x => by
      rw [Function.comp_apply, toNat_saturated, Nat.min_comm])
  · rw [hcolumn, columnAt?_eq_none_iff, isBoundary_iff]
    simp only [length_bytesOf]

/-- Wherever a reader stands after some moves, it locates every offset in the source. Different
boundaries have different positions as long as these are below the largest line and column. After a
reset the reader gives what a new one gives. -/
theorem positions_exact {ms : List Move} (hr : (ofSource source).moved ms = r) :
    (∀ o, Locates source r o) ∧
      (∀ o o' c, o ≤ utf8Length source → o' ≤ utf8Length source → o ≠ o' →
        (r.lineOf o).toNat < 4294967295 → r.columnOf? o = some c → c.toNat < 4294967295 →
        (r.lineOf o, r.columnOf? o) ≠ (r.lineOf o', r.columnOf? o')) ∧
      ∀ further, r.reset.answers further = (ofSource source).answers further := by
  have h : Indexed source r := hr ▸ indexed_moved (indexed_ofSource source) ms
  refine ⟨h.locates, fun o o' c ho ho' hne hline hcolumn hc heq => ?_, fun further => ?_⟩
  · obtain ⟨hlines, hcolumns⟩ := Prod.mk.inj heq
    rw [hcolumn] at hcolumns
    rw [h.lineOf_eq] at hline
    rw [h.lineOf_eq, h.lineOf_eq] at hlines
    rw [columnOf?, h.source_eq] at hcolumn hcolumns
    exact hne (eq_of_position_eq ho ho' hlines hline hcolumn hcolumns.symm hc)
  · exact Level.answers_eq ⟨h.reset, indexed_ofSource source, rfl, h.source_eq, rfl⟩ further

/-- A reader that has started over and has stepped back before a bracket. -/
def steppedBack : Reader := (ofSource "!ü [b]\n12".toList).moved [.next, .next, .reset, .next]

/-- It has scanned more than it has read, and tells offsets on the next line apart. -/
theorem positions_of_steppedBack :
    steppedBack.offset = 4 ∧ steppedBack.scanned = 7 ∧ steppedBack.columnOf? 2 = none ∧
      (steppedBack.lineOf 8, steppedBack.columnOf? 8) = (2, some 1) ∧
      (steppedBack.lineOf 8, steppedBack.columnOf? 8) ≠
        (steppedBack.lineOf 9, steppedBack.columnOf? 9) := by
  have hposition : steppedBack.lineOf 8 = 2 ∧ steppedBack.columnOf? 8 = some 1 := by
    decide +kernel
  obtain ⟨-, hapart, -⟩ := positions_exact (r := steppedBack) rfl
  refine ⟨by decide +kernel, by decide +kernel, by decide +kernel,
    Prod.ext hposition.1 hposition.2, ?_⟩
  exact hapart 8 9 1 (by decide +kernel) (by decide +kernel) (by decide) (by decide +kernel)
    hposition.2 (by decide)

end Reader

end DialogScript
