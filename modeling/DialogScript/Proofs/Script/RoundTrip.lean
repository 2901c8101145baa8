import DialogScript.Proofs.Script.Misread

/-!
# Printing and reading again

A script that was read from a source is printed, in any layout, and what is printed is read. The
script comes back, up to the lines of its conditions, exactly if it is reprintable: the clauses are
read one after the other, each from where the one before it ends, and the first clause that is not
reprintable is lost.

## Main definitions

* `Clause.ReadFrom`: clauses are read from lexemes, up to the lines of conditions

## Main results

* `Clause.readFrom_printed_iff`: which clauses are read from what they are printed as
* `Script.read_print_iff`: which scripts are read from what they are printed as
-/

namespace DialogScript

variable {layout : Layout} {n : Nat}

/-- The parts of a script that clauses make up, with the lines of conditions forgotten. -/
def gatherWithoutLines (cs : List Clause) : List Statement × List Label :=
  ((gather cs).1.map Statement.withoutLines, (gather cs).2.map Label.withoutLines)

theorem gatherWithoutLines_label (name : String) (cs : List Clause) :
    gatherWithoutLines (.label name :: cs) =
      ([], ⟨name, (gatherWithoutLines cs).1⟩ :: (gatherWithoutLines cs).2) := rfl

theorem gatherWithoutLines_statement (s : Statement) (cs : List Clause) :
    gatherWithoutLines (.statement s :: cs) =
      (s.withoutLines :: (gatherWithoutLines cs).1, (gatherWithoutLines cs).2) := rfl

namespace Clause

variable {l : Lexeme} {ls rest : List Lexeme} {cs : List Clause}

/-- Inside a label, the lexemes are read as clauses that make up what `cs` do, up to the lines of
conditions. -/
def ReadFrom (cs : List Clause) (ls : List Lexeme) : Prop :=
  ∃ cs', all true ls = .ok cs' ∧ gatherWithoutLines cs' = gatherWithoutLines cs

/-- The clauses of lexemes are the first clause and the clauses of the lexemes behind it. -/
theorem all_eq_ok_iff {cs' : List Clause} : all true (l :: ls) = .ok cs' ↔
    ∃ c rest cs'', read true l ls = .ok (c, rest) ∧ all true rest = .ok cs'' ∧ cs' = c :: cs'' := by
  rw [all_cons]
  constructor
  · intro h
    obtain ⟨⟨c, rest⟩, hread, h⟩ := ok_of_bind h
    obtain ⟨cs'', hall, h⟩ := ok_of_bind h
    exact ⟨c, rest, cs'', hread, hall, (Except.ok.inj h).symm⟩
  · rintro ⟨c, rest, cs'', hread, hall, rfl⟩
    simp only [hread, bind, Except.bind, Bool.true_or, hall]
    rfl

theorem readFrom_label_iff {name : String} (hread : read true l ls = .ok (.label name, rest)) :
    ReadFrom (.label name :: cs) (l :: ls) ↔ ReadFrom cs rest := by
  constructor
  · rintro ⟨cs', hall, hcs⟩
    obtain ⟨c, rest', cs'', hread', hall, rfl⟩ := all_eq_ok_iff.mp hall
    obtain ⟨rfl, rfl⟩ := Prod.mk.inj (Except.ok.inj (hread.symm.trans hread'))
    rw [gatherWithoutLines_label, gatherWithoutLines_label] at hcs
    obtain ⟨hlabel, hlabels⟩ := List.cons.inj (Prod.mk.inj hcs).2
    exact ⟨cs'', hall, Prod.ext (Label.mk.inj hlabel).2 hlabels⟩
  · rintro ⟨cs', hall, hcs⟩
    refine ⟨_, all_eq_ok_iff.mpr ⟨_, _, _, hread, hall, rfl⟩, ?_⟩
    rw [gatherWithoutLines_label, gatherWithoutLines_label, hcs]

theorem readFrom_statement_iff {s s' : Statement}
    (hread : read true l ls = .ok (.statement s', rest)) (hs : s'.withoutLines = s.withoutLines) :
    ReadFrom (.statement s :: cs) (l :: ls) ↔ ReadFrom cs rest := by
  constructor
  · rintro ⟨cs', hall, hcs⟩
    obtain ⟨c, rest', cs'', hread', hall, rfl⟩ := all_eq_ok_iff.mp hall
    obtain ⟨rfl, rfl⟩ := Prod.mk.inj (Except.ok.inj (hread.symm.trans hread'))
    rw [gatherWithoutLines_statement, gatherWithoutLines_statement] at hcs
    obtain ⟨hstatements, hlabels⟩ := Prod.mk.inj hcs
    exact ⟨cs'', hall, Prod.ext (List.cons.inj hstatements).2 hlabels⟩
  · rintro ⟨cs', hall, hcs⟩
    refine ⟨_, all_eq_ok_iff.mpr ⟨_, _, _, hread, hall, rfl⟩, ?_⟩
    rw [gatherWithoutLines_statement, gatherWithoutLines_statement, hcs, hs]

theorem not_readFrom {s : Statement}
    (hread : ∀ c after, read true l ls = .ok (c, after) →
      ∃ s', c = .statement s' ∧ s'.withoutLines ≠ s.withoutLines) :
    ¬ReadFrom (.statement s :: cs) (l :: ls) := by
  rintro ⟨cs', hall, hcs⟩
  obtain ⟨c, rest, cs'', hc, -, rfl⟩ := all_eq_ok_iff.mp hall
  obtain ⟨s', rfl, hs⟩ := hread c rest hc
  rw [gatherWithoutLines_statement, gatherWithoutLines_statement] at hcs
  exact hs (List.cons.inj (Prod.mk.inj hcs).1).1

/-- The head of a label is read back. -/
theorem lexed_head (layout : Layout) {name : String} (hname : IsWord name.toList)
    (cs : List Clause) (o : Nat) :
    ∃ colon rest start, lexed o n (':' :: (name.toList ++ '\n' :: printedChars layout cs)) =
        colon :: rest ∧ colon.kind = .colon ∧
      head colon rest = .ok (.label name, lexed start (n + 1) (printedChars layout cs)) := by
  rw [lexed_colon, lexed_word hname (stops_cons rfl _), lexed_feed]
  refine ⟨_, _, o + utf8Length [':'] + utf8Length name.toList + utf8Length ['\n'], rfl, rfl, ?_⟩
  rw [head, expect_lexeme .labelName rfl]
  simp only [bind, Except.bind, pure, Except.pure, Lexeme.string, String.ofList_toList]

/-- The head of a label is read back behind other clauses. -/
theorem read_printed_label (layout : Layout) {name : String} (hname : IsWord name.toList)
    (cs : List Clause) (o n : Nat) :
    ∃ l rest start, lexed o n (printedChars layout (.label name :: cs)) = l :: rest ∧
      read true l rest = .ok (.label name,
        lexed start (n + (if layout.blankLineBetweenLabels then 1 else 0) + 1)
          (printedChars layout cs)) := by
  have hread (o n : Nat) : ∃ l rest start,
      lexed o n (':' :: (name.toList ++ '\n' :: printedChars layout cs)) = l :: rest ∧
        read true l rest = .ok (.label name, lexed start (n + 1) (printedChars layout cs)) := by
    obtain ⟨colon, rest, start, hlexed, hkind, hhead⟩ := lexed_head layout (n := n) hname cs o
    refine ⟨colon, rest, start, hlexed, ?_⟩
    unfold read
    rw [decide_eq_true hkind]
    exact hhead
  rw [printedChars]
  split
  · rw [List.cons_append, List.nil_append, lexed_feed]
    exact hread _ _
  · rw [List.nil_append]
    exact hread _ _

/-- Clauses are read from what they are printed as exactly if they are reprintable. -/
theorem readFrom_printed_iff (hcs : ∀ c ∈ cs, c.Printed) (o n : Nat) :
    ReadFrom cs (lexed o n (printedChars layout cs)) ↔ ClausesReprintable layout n cs := by
  induction cs generalizing o n with
  | nil =>
      rw [printedChars, lexed_nil]
      exact iff_of_true ⟨[], rfl, rfl⟩ trivial
  | cons c cs ih =>
      obtain ⟨hc, hrest⟩ := List.forall_mem_cons.mp hcs
      cases c with
      | label name =>
          obtain ⟨l, rest, start, hlexed, hread⟩ := read_printed_label layout hc cs o n
          rw [hlexed, readFrom_label_iff hread, ClausesReprintable]
          exact ih hrest _ _
      | statement s =>
          rw [ClausesReprintable]
          by_cases hback : s.Reprintable n cs.head?
          · obtain ⟨l, rest, start, hlexed, hread⟩ := read_printed layout hc hrest hback o
            have hs := s.withoutLines_relined (fun n => saturated (1 + n)) layout n
            rw [hlexed, readFrom_statement_iff hread hs, ih hrest]
            exact (and_iff_right hback).symm
          · obtain ⟨l, rest, hlexed, hread⟩ := read_misprinted layout hc hrest hback o
            rw [hlexed]
            exact iff_of_false (not_readFrom hread) fun h => hback h.1
      | skipped | stray => exact hc.elim

end Clause

namespace Script

variable {u : Script} {source : String}

theorem printed_clauses (hwell : u.WellFormed) : ∀ c ∈ u.clauses, c.Printed := by
  intro c hc
  obtain ⟨l, hl, hmem⟩ := List.mem_flatMap.mp hc
  obtain ⟨hname, hstatements⟩ := hwell l hl
  rcases List.mem_cons.mp hmem with rfl | hmem
  · exact hname
  · obtain ⟨s, hs, rfl⟩ := List.mem_map.mp hmem
    exact hstatements s hs

/-- The clauses of a script make it up, also with the lines of conditions forgotten. -/
theorem withoutLines_ofClauses_iff {l : Label} {ls : List Label} {cs : List Clause} :
    (ofClauses (.label l.name :: cs)).withoutLines = Script.withoutLines ⟨l :: ls⟩ ↔
      gatherWithoutLines cs = gatherWithoutLines (Script.clauses ⟨l :: ls⟩).tail := by
  have hclauses : (Script.clauses ⟨l :: ls⟩).tail =
      l.statements.map .statement ++ ls.flatMap Label.clauses := rfl
  have hgather : gatherWithoutLines (Script.clauses ⟨l :: ls⟩).tail =
      (l.statements.map Statement.withoutLines, ls.map Label.withoutLines) := by
    rw [hclauses, gatherWithoutLines, gather_statements, gather_clauses, List.append_nil]
  rw [hgather]
  constructor
  · intro h
    obtain ⟨hlabel, hlabels⟩ := List.cons.inj (Script.mk.inj h)
    exact Prod.ext (Label.mk.inj hlabel).2 hlabels
  · intro h
    obtain ⟨hstatements, hlabels⟩ := Prod.mk.inj h
    exact congrArg Script.mk (congrArg₂ List.cons (congrArg (Label.mk l.name) hstatements) hlabels)

/-- The print of a script is read from its first head on. -/
theorem read_print_eq_ok_iff {l : Label} (hname : IsWord l.name.toList) (ls : List Label)
    (layout : Layout) : ∃ start, ∀ u', Script.read (Script.print ⟨l :: ls⟩ layout) = .ok u' ↔
      ∃ cs, Clause.all true (lexed start 1 (printedChars layout (Script.clauses ⟨l :: ls⟩).tail)) =
        .ok cs ∧ u' = ofClauses (.label l.name :: cs) := by
  have hprint : (Script.print ⟨l :: ls⟩ layout).toList =
      ':' :: (l.name.toList ++ '\n' :: printedChars layout (Script.clauses ⟨l :: ls⟩).tail) := by
    rw [print, String.toList_ofList, labelChars_eq]
    rfl
  obtain ⟨colon, rest, start, hlexed, hkind, hhead⟩ := Clause.lexed_head layout (n := 0) hname
    (Script.clauses ⟨l :: ls⟩).tail 0
  have hread : Clause.read false colon rest = .ok (.label l.name,
      lexed start 1 (printedChars layout (Script.clauses ⟨l :: ls⟩).tail)) := by
    unfold Clause.read
    rw [decide_eq_true hkind]
    dsimp only
    rw [hhead]
  refine ⟨start, fun u' => ?_⟩
  rw [Script.read, readChars, significant_eq, hprint, hlexed, Clause.all_cons, hread]
  simp only [bind, Except.bind, Clause.isLabel, Bool.or_true]
  cases Clause.all true (lexed start 1 (printedChars layout (Script.clauses ⟨l :: ls⟩).tail)) with
  | error failure =>
      constructor
      · intro h
        cases h
      · rintro ⟨cs, h, -⟩
        cases h
  | ok cs =>
      constructor
      · exact fun h => ⟨cs, rfl, (Except.ok.inj h).symm⟩
      · rintro ⟨cs', hcs, rfl⟩
        rw [Except.ok.inj hcs]
        rfl

/-- A script that was read from a source is read back from its print, up to the lines of its
conditions, exactly if it is reprintable. -/
theorem read_print_iff (hread : Script.read source = .ok u) (layout : Layout) :
    (∃ u', Script.read (u.print layout) = .ok u' ∧ u'.withoutLines = u.withoutLines) ↔
      u.Reprintable layout := by
  have hwell := wellFormed_of_read hread
  obtain ⟨labels⟩ := u
  cases labels with
  | nil => exact iff_of_true ⟨⟨[]⟩, rfl, rfl⟩ trivial
  | cons l ls =>
      obtain ⟨start, hprint⟩ :=
        read_print_eq_ok_iff (hwell l List.mem_cons_self).1 ls layout
      rw [Reprintable, ← Clause.readFrom_printed_iff
        (fun c hc => printed_clauses hwell c (List.mem_of_mem_tail hc)) start 1]
      constructor
      · rintro ⟨u', hu', hlines⟩
        obtain ⟨cs, hall, rfl⟩ := (hprint u').mp hu'
        exact ⟨cs, hall, withoutLines_ofClauses_iff.mp hlines⟩
      · rintro ⟨cs, hall, hcs⟩
        exact ⟨_, (hprint _).mpr ⟨cs, hall, rfl⟩, withoutLines_ofClauses_iff.mpr hcs⟩

/-- A condition below its statement is printed behind it, on another line. -/
theorem read_print_of_condition_below :
    Script.read ":a\n!f [ 1 \n[once]\n" =
        .ok ⟨[⟨"a", [⟨.code "f [ 1", [⟨.scope .once, 3⟩]⟩]⟩]⟩ ∧
      ∃ u', Script.read (Script.print ⟨[⟨"a", [⟨.code "f [ 1", [⟨.scope .once, 3⟩]⟩]⟩]⟩) = .ok u' ∧
        u'.withoutLines = ⟨[⟨"a", [⟨.code "f [ 1", [⟨.scope .once, 0⟩]⟩]⟩]⟩ := by
  have hread : Script.read ":a\n!f [ 1 \n[once]\n" =
      .ok ⟨[⟨"a", [⟨.code "f [ 1", [⟨.scope .once, 3⟩]⟩]⟩]⟩ := by decide +kernel
  refine ⟨hread, (read_print_iff hread {}).mpr ⟨⟨by decide, ?_⟩, trivial⟩⟩
  rintro c hc
  obtain rfl := Option.some.inj hc
  decide

/-- A text identifier may hold a quote, but the text between quotes may not. -/
theorem not_read_print_of_quote :
    ∃ u, Script.read ":a\n1 $x\"y -> a\n" = .ok u ∧
      ∀ u', Script.read u.print = .ok u' → u'.withoutLines ≠ u.withoutLines := by
  refine ⟨⟨[⟨"a", [⟨.choice 1 "$x\"y" "a", []⟩]⟩]⟩, by decide +kernel, ?_⟩
  intro u' hread
  have herror : ((Script.read (Script.print ⟨[⟨"a", [⟨.choice 1 "$x\"y" "a", []⟩]⟩]⟩)).toBool) =
      false := by decide +kernel
  rw [hread] at herror
  cases herror

end Script

end DialogScript
