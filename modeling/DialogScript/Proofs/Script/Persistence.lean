import DialogScript.Proofs.Script.Joining
import DialogScript.Proofs.Script.Parallel
import DialogScript.Proofs.Token.Order

/-!
# Errors that remain

An error in whole lines remains whatever is put behind them. The lexemes of whole lines are also
those of the longer source, but for a string or a condition at the end that is not closed and goes
on in what stands behind. What the longer source adds begins on later lines, and the reading looks
at no later line before it gives up on a clause.

Numbers of lines end at the largest one, so from there on later lines have the same number. An error
on that line may be repaired. So errors remain in sources with fewer line feeds than there are
numbers, and for every larger number of line feeds there is a source whose error is repaired.

## Main definitions

* `Comparison.longer`: a source is compared to one that goes on behind it

## Main results

* `parallel_lexed_append`: the lexemes of whole lines and those of a longer source
* `Script.readChars_append_of_error`: an error in whole lines remains
* `Script.error_of_read_append`: errors and scripts of whole lines and of longer sources
* `Script.read_append_onLastLine`, `Script.not_error_of_read_append`: errors on the line with the
  largest number do not remain
-/

namespace DialogScript

/-- The first source has `feeds` line feeds, and the second one goes on behind it. -/
def Comparison.longer (feeds : Nat) : Comparison where
  place := Eq
  exact := False
  shared line := line < saturated (1 + feeds)

open Comparison (longer Like Parallel)

variable {source more : List Char}

/-! ### Lexemes of a longer source -/

/-- The lexemes behind the first source stand on later lines. -/
theorem not_shared_of_mem_lexed {feeds o n : Nat} {cs : List Char} {k : Lexeme}
    (hk : k ∈ lexed o n cs) (hn : feeds ≤ n) : ¬(longer feeds).shared k.line := by
  have hline := le_line_of_mem_lexemesFrom (List.mem_of_mem_filter hk)
  change ¬k.line < saturated (1 + feeds)
  rw [UInt32.lt_iff_toNat_lt, toNat_saturated]
  omega

/-- The last piece of whole lines is a line feed, or it goes on in the longer source, but begins in
the same place. -/
theorem parallel_lexed_last {feeds o n : Nat} {p : Piece}
    (hscan : Piece.scan? p.text = some (p, [])) (hlast : p.text.getLast? = some '\n')
    (hfeeds : n + p.text.count '\n' = feeds) (more : List Char) :
    (longer feeds).Parallel (lexed o n p.text) (lexed o n (p.text ++ more)) := by
  have hrule := (Piece.scan?_eq_some_iff.mp hscan).2
  by_cases hkind : p.kind = .newLine
  · obtain ⟨kind, text⟩ := p
    subst hkind
    obtain rfl := hrule.text_newLine
    rw [List.singleton_append, lexed_feed, lexed_feed, lexed_nil]
    exact .ended False.elim fun k hk => not_shared_of_mem_lexed hk (Nat.le_of_eq hfeeds.symm)
  · obtain ⟨hkinds, taken, behind, rfl, hrule'⟩ := hrule.goes_on hlast hkind more
    have hscan' : Piece.scan? (p.text ++ (taken ++ behind)) =
        some (⟨p.kind, p.text ++ taken⟩, behind) :=
      Piece.scan?_eq_some_iff.mpr ⟨(List.append_assoc _ _ _).symm, hrule'⟩
    have hword : ¬(p.kind = .word ∨ p.kind = .number) := by
      rcases hkinds with hkind | hkind <;> rw [hkind] <;> decide
    refine .of_scan? hscan hscan' rfl
      (fun _ => ⟨rfl, rfl, rfl, fun h => absurd h hword, False.elim⟩) False.elim ?_
    refine .ended False.elim fun k hk => not_shared_of_mem_lexed hk ?_
    dsimp only
    rw [List.count_append]
    omega

/-- The lexemes of whole lines correspond to those of a longer source. -/
theorem parallel_lexed_append {feeds : Nat} {cs : List Char} (hcs : EndsLine cs)
    (more : List Char) {o n : Nat} (hfeeds : n + cs.count '\n' = feeds) :
    (longer feeds).Parallel (lexed o n cs) (lexed o n (cs ++ more)) := by
  revert o n
  refine Piece.all_induct (motive := fun cs _ => EndsLine cs → ∀ {o n : Nat},
    n + cs.count '\n' = feeds →
      (longer feeds).Parallel (lexed o n cs) (lexed o n (cs ++ more))) ?_ ?_ cs hcs
  · intro cs hscan hcs o n hfeeds
    rw [lexed_of_none hscan]
    rcases Piece.scan?_eq_none_iff.mp hscan with rfl | hnul
    · exact .ended False.elim fun k hk => not_shared_of_mem_lexed hk (Nat.le_of_eq hfeeds.symm)
    · -- A NUL ends the longer source as well.
      have hscan' : Piece.scan? (cs ++ more) = none := by
        rw [Piece.scan?_eq_none_iff, Piece.Ends, List.head?_append, hnul]
        exact .inr rfl
      rw [lexed_of_none hscan']
      exact .ended (fun _ => rfl) fun k hk => absurd hk List.not_mem_nil
  · intro cs p rest hscan ih hcs o n hfeeds
    obtain ⟨hparts, hrule⟩ := Piece.scan?_eq_some_iff.mp hscan
    rw [hparts] at hcs
    have hrest := hcs.of_append
    rcases List.eq_nil_or_concat rest with rfl | ⟨init, c, hrest'⟩
    · obtain rfl : cs = p.text := by rw [hparts, List.append_nil]
      have hlast := (List.append_nil p.text ▸ hcs).getLast?_eq (Piece.scan?_eq_some hscan).2
      exact parallel_lexed_last hscan hlast hfeeds more
    · have hend := hrest.getLast?_eq (by simp [hrest'])
      have hscan' : Piece.scan? (cs ++ more) = some (p, rest ++ more) :=
        Piece.scan?_eq_some_iff.mpr
          ⟨by rw [hparts, List.append_assoc], hrule.append hend more⟩
      have hfeeds' : n + p.text.count '\n' + rest.count '\n' = feeds := by
        rw [← hfeeds, hparts, List.count_append, Nat.add_assoc]
      exact .of_scan? hscan hscan' rfl (fun _ => .refl rfl) False.elim (ih hrest hfeeds')

/-! ### Errors of a longer source -/

/-- A lexeme of whole lines has its column and the text of its line in a longer source. -/
theorem lineTextAt_append_of_mem {l : Lexeme} (hsource : EndsLine source)
    (hl : l ∈ lexemes source) (more : List Char) :
    columnAt? (source ++ more) l.start = columnAt? source l.start ∧
      lineTextAt (source ++ more) l.start = lineTextAt source l.start := by
  obtain ⟨before, behind, rfl, hfeed, hstart, -⟩ := l.exists_feed_of_mem hsource hl
  rw [hstart, List.append_assoc, columnAt?_append_utf8Length, columnAt?_append_utf8Length,
    lineTextAt_append_utf8Length, lineTextAt_append_utf8Length, firstLine_append hfeed]
  exact ⟨rfl, rfl⟩

/-- The same fault is told in the same words. -/
theorem Fault.error_append {feeds : Nat} {f g : Fault} (hsource : EndsLine source)
    (hf : f.lexeme ∈ lexemes source) (hsame : (longer feeds).SameFault f g)
    (more : List Char) : g.error (source ++ more) = f.error source := by
  cases hsame with
  | @unmet e l k hlk =>
      have hl : l ∈ lexemes source := hf
      have hstart : l.start = k.start := hlk.place
      obtain ⟨hcolumn, htext⟩ := lineTextAt_append_of_mem hsource hl more
      rw [Fault.error, Fault.error, hlk.line, ← hstart, hcolumn, htext]
  | unknownWord hlk htext =>
      rw [Fault.error, Fault.error, hlk.line, Lexeme.string, htext, Lexeme.string]

namespace Script

/-- An error in whole lines remains in every longer source, if each of the lines has a number of its
own. -/
theorem readChars_append_of_error {e : Error} (hsource : EndsLine source)
    (hlines : source.count '\n' < 4294967295) (hread : readChars source = .error e)
    (more : List Char) : readChars (source ++ more) = .error e := by
  rw [readChars] at hread
  split at hread
  · cases hread
  · rename_i failure hfailure
    obtain rfl := Except.error.inj hread
    have hmem : failure.fault.lexeme ∈ lexemes source :=
      List.mem_of_mem_filter (Clause.lexeme_mem_of_all hfailure)
    have hparallel : (longer (source.count '\n')).Parallel (significant source)
        (significant (source ++ more)) :=
      parallel_lexed_append hsource more (Nat.zero_add _)
    have hsorted := (pairwise_before_significant source).imp fun hlk => hlk.line_le
    -- Up to the line of the fault, all lines are among those of the source.
    have hshared (l : Lexeme) (hle : l.line ≤ failure.fault.lexeme.line) :
        (longer (source.count '\n')).shared l.line := by
      have hlast := hsource.line_le hmem
      have hle := UInt32.le_iff_toNat_le.mp hle
      change l.line < saturated (1 + source.count '\n')
      rw [UInt32.lt_iff_toNat_lt, toNat_saturated]
      omega
    obtain ⟨f, hf, hsame⟩ :=
      Clause.all_error_of_parallel hparallel hsorted hfailure fun l _ => hshared l
    rw [readChars, hf]
    exact congrArg Except.error (Fault.error_append hsource hmem hsame more)

/-- An error in whole lines remains, in every part of it, whatever is put behind them. So whole
lines at the beginning of a source that is a script are a script, even if they end inside a text or
a condition. The lines have to have fewer line feeds than there are numbers of lines. -/
theorem error_of_read_append {s : String} (hs : EndsLine s.toList)
    (hlines : s.toList.count '\n' < 4294967295) (t : String) :
    (∀ e, Script.read s = .error e → Script.read (s ++ t) = .error e) ∧
    (∀ u, Script.read (s ++ t) = .ok u → ∃ v, Script.read s = .ok v) := by
  have herror (e : Error) (he : Script.read s = .error e) : Script.read (s ++ t) = .error e := by
    rw [Script.read, String.toList_append]
    exact readChars_append_of_error hs hlines he t.toList
  refine ⟨herror, fun u hu => ?_⟩
  cases hread : Script.read s with
  | ok v => exact ⟨v, rfl⟩
  | error e => cases (herror e hread).symm.trans hu

/-- A text that ends inside a longer source is closed there, and the error before it remains. -/
theorem error_of_read_append_open_text :
    let s := ":a\nb:\nc: \"x\n"
    let t := "y\" [once]\n:d\n"
    let e : Error := { kind := .malformed "expected text after ':'" 2 2 "b:" }
    let s' := ":a\nc: \"x\n"
    EndsLine s.toList ∧ s.toList.count '\n' < 4294967295 ∧
      Script.read s = .error e ∧ Script.read (s ++ t) = .error e ∧
      EndsLine s'.toList ∧ s'.toList.count '\n' < 4294967295 ∧
      (∃ u, Script.read (s' ++ t) = .ok u) ∧ ∃ v, Script.read s' = .ok v := by
  intro s t e s'
  have hs : EndsLine s.toList := fun c hc => by
    simpa [s, eq_comm] using hc
  have hs' : EndsLine s'.toList := fun c hc => by
    simpa [s', eq_comm] using hc
  have hlines : s.toList.count '\n' < 4294967295 := by decide +kernel
  have hlines' : s'.toList.count '\n' < 4294967295 := by decide +kernel
  have he : Script.read s = .error e := by decide +kernel
  have hu : Script.read (s' ++ t) =
      .ok ⟨[⟨"a", [⟨.say "c" "x\ny", [⟨.scope .once, 3⟩]⟩]⟩, ⟨"d", []⟩]⟩ := by
    decide +kernel
  exact ⟨hs, hlines, he, (error_of_read_append hs hlines t).1 e he, hs', hlines', ⟨_, hu⟩,
    (error_of_read_append hs' hlines' t).2 _ hu⟩

/-- On the line with the largest number an error is repaired by a lexeme on a later line, which is
taken for one on the same line. -/
theorem read_append_onLastLine {n : Nat} (hn : 4294967294 ≤ n) :
    (∃ e, readChars (List.replicate n '\n' ++ ":a :\n".toList) = .error e) ∧
      readChars (List.replicate n '\n' ++ ":a :\nb".toList) = .ok ⟨[⟨"a", []⟩, ⟨"b", []⟩]⟩ := by
  have hs : significant ":a :\n".toList =
      [⟨.colon, [':'], 0, 1⟩, ⟨.word, ['a'], 1, 1⟩, ⟨.colon, [':'], 3, 1⟩] := by decide +kernel
  have ht : significant ":a :\nb".toList =
      [⟨.colon, [':'], 0, 1⟩, ⟨.word, ['a'], 1, 1⟩, ⟨.colon, [':'], 3, 1⟩,
        ⟨.word, ['b'], 5, 2⟩] := by decide +kernel
  rw [readChars, readChars, significant_onLastLine hn, significant_onLastLine hn, hs, ht]
  exact ⟨⟨_, rfl⟩, rfl⟩

/-- Whole lines with one line feed for each number of a line are not a script, but with a name
behind them they are one. -/
theorem not_error_of_read_append :
    let s := String.ofList (List.replicate 4294967294 '\n' ++ ":a :\n".toList)
    EndsLine s.toList ∧ s.toList.count '\n' = 4294967295 ∧ (∃ e, Script.read s = .error e) ∧
      Script.read (s ++ "b") = .ok ⟨[⟨"a", []⟩, ⟨"b", []⟩]⟩ := by
  intro s
  obtain ⟨herror, hread⟩ := read_append_onLastLine (Nat.le_refl _)
  refine ⟨?_, ?_, ?_, ?_⟩
  · rw [String.toList_ofList]
    exact endsLine_append rfl _
  · rw [String.toList_ofList, List.count_append, List.count_replicate_self]
    rfl
  · rw [read_ofList]
    exact herror
  · rw [Script.read, String.toList_append, String.toList_ofList, List.append_assoc]
    exact hread

end Script

end DialogScript
