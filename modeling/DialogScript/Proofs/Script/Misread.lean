import DialogScript.Proofs.Script.Reread

/-!
# What is printed and not read back

An instruction that is not reprintable is printed as something else. A text of a choice ends at its
first quote, an infinite number of seconds is no number, a run of code ends too early or too late,
and a bare keyword takes up the next line. In each of these cases the reading fails or gives another
instruction, so that the conditions under which a statement is reprintable are exact.

## Main definitions

* `Instruction.Misread`: an instruction is not read back before a text

## Main results

* `Statement.misread`: the instruction of any other statement than a reprintable one is misread
* `Clause.read_misprinted`: and so is the statement
-/

namespace DialogScript

variable {layout : Layout} {n : Nat} {cs : List Char} {i : Instruction} {k : Keyword}

/-- The instruction, printed after `n` line feeds before a text, is not read, or another one is. -/
def Instruction.Misread (layout : Layout) (n : Nat) (cs : List Char) (i : Instruction) : Prop :=
  ∀ o, ∃ l rest reading, lexed o n (i.chars layout ++ cs) = l :: rest ∧ l.kind ≠ .colon ∧
    Clause.instruction? l rest = some reading ∧ ∀ j after, reading = .ok (j, after) → j ≠ i

namespace Instruction

open Clause

/-! ### Choices -/

theorem isTextId_of_quote {text : List Char} (hquote : '"' ∈ text) : isTextId text = false := by
  rw [Bool.eq_false_iff]
  intro hid
  rw [isTextId.eq_def] at hid
  split at hid
  · have hchars := List.all_eq_true.mp (Bool.and_eq_true_iff.mp hid).2
    rcases List.mem_cons.mp hquote with hdollar | hmem
    · cases hdollar
    · cases hchars _ hmem
  · cases hid

/-- The text of a choice ends at its first quote. -/
theorem misread_choice_of_quote {number : Int32} {text target : String}
    (hquote : '"' ∈ text.toList) : (choice number text target).Misread layout n cs := by
  intro o
  obtain ⟨rest, start, hfirst, hchoice⟩ := choice_lexed layout n cs number text target o
  refine ⟨_, rest, _, hfirst, (fun h => by cases h), rfl, ?_⟩
  intro j after hread
  obtain ⟨before, behind, hsplit, hbefore⟩ := List.eq_append_cons_of_mem hquote
  have hprinted (more : List Char) : printedChoiceText text.toList ++ more =
      '"' :: (before ++ '"' :: (behind ++ '"' :: more)) := by
    rw [printedChoiceText, isTextId_of_quote hquote, if_neg Bool.false_ne_true, hsplit]
    simp
  rw [hchoice, hprinted, lexed_string hbefore, choiceText, if_pos ⟨rfl, rfl⟩, Lexeme.unquoted,
    stripped_between] at hread
  obtain ⟨⟨text', afterText⟩, htext, htarget⟩ := ok_of_bind hread
  obtain ⟨rfl, rfl⟩ := Prod.mk.inj (Except.ok.inj htext)
  obtain ⟨⟨name, afterName⟩, -, hresult⟩ := ok_of_bind htarget
  obtain ⟨rfl, -⟩ := Prod.mk.inj (Except.ok.inj hresult)
  intro heq
  obtain ⟨-, heq, -⟩ := choice.inj heq
  have hlength := congrArg List.length hsplit
  rw [← heq, String.toList_ofList, List.length_append, List.length_cons] at hlength
  omega

/-- A choice does not go on over the end of its line. -/
theorem misread_choice_of_feed {number : Int32} {text target : String}
    (hquote : '"' ∉ text.toList) (hfeed : '\n' ∈ text.toList) (hfull : ¬LinesFull n) :
    (choice number text target).Misread layout n cs := by
  intro o
  obtain ⟨rest, start, hfirst, hchoice⟩ := choice_lexed layout n cs number text target o
  refine ⟨_, rest, _, hfirst, (fun h => by cases h), rfl, ?_⟩
  intro j after hread
  obtain ⟨start', htext⟩ := choiceText_lexed (n := n)
    ⟨.number, Numeral.ofInt32 number, o, saturated (1 + n)⟩ rfl hquote
    ('-' :: '>' :: ' ' :: (target.toList ++ cs)) start
  rw [hchoice, htext] at hread
  obtain ⟨⟨text', afterText⟩, htext', hread'⟩ := ok_of_bind hread
  obtain ⟨rfl, rfl⟩ := Prod.mk.inj (Except.ok.inj htext')
  obtain ⟨⟨name, afterName⟩, htarget, -⟩ := ok_of_bind hread'
  obtain ⟨⟨arrow, afterArrow⟩, harrow, -⟩ := ok_of_bind htarget
  have hcount : 0 < text.toList.count '\n' := List.count_pos_iff.mpr hfeed
  rw [lexed_space (stops_cons rfl _), lexed_arrow, expect, if_neg] at harrow
  · cases harrow
  · exact fun h => hfull ((saturated_eq_iff (by omega)).mp h.2)

/-! ### Pauses -/

/-- A number of seconds that is not finite is printed as a word or as a word behind a minus
sign. -/
theorem text_of_not_isFinite {x : Binary32} (hx : ¬x.isFinite = true) :
    IsWord x.text ∨ x.text = ['-', 'i', 'n', 'f'] := by
  cases x with
  | nan => exact .inl (isWord_cons rfl rfl (by decide))
  | signed negative rank =>
      have hrank : rank.val = BinaryFormat.single.infinity := by
        simpa [Binary.isFinite] using hx
      rw [Binary.text, if_pos hrank]
      cases negative with
      | true => exact .inr rfl
      | false => exact .inl (isWord_cons rfl rfl (by decide))

theorem misread_pause {seconds : Binary32} (hseconds : ¬seconds.isFinite = true)
    (hcs : Breaks cs) : (pause seconds).Misread layout n cs := by
  intro o
  have hno (l : Lexeme) (ls : List Lexeme) (hl : l.kind ≠ .number ∨ Binary32.read? l.text = none)
      (w : Lexeme) (j : Instruction) (after : List Lexeme) :
      keyword .pause w (l :: ls) ≠ .ok (j, after) := by
    intro hread
    obtain ⟨⟨x, rest⟩, hnumeral, -⟩ := ok_of_bind hread
    obtain ⟨⟨m, rest'⟩, hexpect, hvalue⟩ := ok_of_bind hnumeral
    obtain ⟨hm, hnumber⟩ := of_expect hexpect
    obtain ⟨rfl, rfl⟩ := List.cons.inj hm
    rcases hl with hl | hl
    · exact hl hnumber
    · dsimp only at hvalue
      rw [hl] at hvalue
      cases hvalue
  -- The lexeme behind the keyword is the word, or else a number that is a sign alone.
  obtain ⟨l, ls, hlexed, hcolon, hl⟩ : ∃ l ls, lexed (o + utf8Length Keyword.pause.word) n
      (' ' :: (seconds.text ++ cs)) = l :: ls ∧ l.kind ≠ .colon ∧
        (l.kind ≠ .number ∨ Binary32.read? l.text = none) := by
    rcases text_of_not_isFinite hseconds with hword | htext
    · rw [lexed_space (hword.stops_gap cs), lexed_word hword (hcs.stops rfl rfl)]
      exact ⟨_, _, rfl, (fun h => by cases h), .inl (fun h => by cases h)⟩
    · have hscan : Piece.scan? ('-' :: 'i' :: 'n' :: 'f' :: cs) =
          some (⟨.number, ['-']⟩, 'i' :: 'n' :: 'f' :: cs) := rfl
      have happend : ['-', 'i', 'n', 'f'] ++ cs = '-' :: 'i' :: 'n' :: 'f' :: cs := rfl
      rw [htext, happend, lexed_space (stops_cons rfl _), lexed_of_scan? hscan rfl]
      exact ⟨_, _, rfl, (fun h => by cases h), .inr (show Binary32.read? ['-'] = none by decide)⟩
  have hne : seconds.text ≠ [] := by
    rcases text_of_not_isFinite hseconds with hword | htext
    · exact hword.ne_nil
    · rw [htext]
      exact List.cons_ne_nil _ _
  rw [chars, Keyword.applied_of_ne_nil hne, List.append_assoc, List.cons_append,
    lexed_keyword .pause (breaks_space _), hlexed]
  refine ⟨_, _, _, rfl, (fun h => by cases h), instruction?_keyword (not_beginsOn_cons hcolon), ?_⟩
  exact fun j after hread => absurd hread (hno l ls hl _ j after)

/-! ### Bare keywords -/

/-- A bare keyword takes the name of a label for what an actor says. -/
theorem misread_of_label (hchars : i.chars layout = k.word) (hcs : Breaks cs)
    (hlabel : ∀ o, ∃ colon name rest, lexed o n cs = colon :: name :: rest ∧
      colon.kind = .colon ∧ colon.line = saturated (1 + n) ∧ name.kind ≠ .string) :
    i.Misread layout n cs := by
  intro o
  obtain ⟨colon, name, rest, hlexed, hcolon, hline, hname⟩ := hlabel (o + utf8Length k.word)
  rw [hchars, lexed_keyword k hcs, hlexed]
  refine ⟨_, _, _, rfl, (fun h => by cases h), rfl, ?_⟩
  intro j after hread
  rw [word.eq_def] at hread
  dsimp only at hread
  rw [if_pos ⟨hcolon, hline⟩] at hread
  obtain ⟨⟨text, afterText⟩, htext, -⟩ := ok_of_bind hread
  obtain ⟨heq, hstring⟩ := of_expect htext
  obtain ⟨rfl, -⟩ := List.cons.inj heq
  exact absurd hstring hname

/-- A bare keyword takes the word with which a statement begins for its argument. -/
theorem misread_of_word {f : String → Instruction}
    (hkeyword : ∀ w ls, keyword k w ls =
      .ok (f ((Clause.argument w ls).1.getD ""), (Clause.argument w ls).2))
    (hf : Function.Injective f) (hchars : (f "").chars layout = k.word) (hcs : Breaks cs)
    (hword : ∀ o, ∃ text start rest,
      lexed o n cs = ⟨.word, text, start, saturated (1 + n)⟩ :: rest ∧ IsWord text) :
    (f "").Misread layout n cs := by
  intro o
  obtain ⟨text, start, rest, hlexed, htext⟩ := hword (o + utf8Length k.word)
  rw [hchars, lexed_keyword k hcs, hlexed]
  have hcolon : ¬BeginsOn (saturated (1 + n)) .colon
      (⟨.word, text, start, saturated (1 + n)⟩ :: rest) :=
    not_beginsOn_cons (fun h => by cases h)
  refine ⟨_, _, _, rfl, (fun h => by cases h), instruction?_keyword hcolon, ?_⟩
  intro j after hread
  rw [hkeyword, argument_word rfl, Option.getD_some] at hread
  obtain ⟨rfl, -⟩ := Prod.mk.inj (Except.ok.inj hread)
  intro heq
  have hempty := congrArg String.toList (hf heq)
  rw [String.toList_ofList] at hempty
  exact htext.ne_nil hempty

end Instruction

namespace Statement

variable {s : Statement}

/-! ### Code -/

/-- A run of code that is not told apart from the conditions ends inside the code, or behind a
bracket that is not part of it. Either way it is another code, also when it is trimmed. -/
theorem countP_codeRun_behind (layout : Layout) {spaced : Bool} {code : List Char}
    (hline : StaysOnLine code) (hkeeps : ¬s.KeepsCode spaced code) (cs : List Clause) :
    (Piece.codeRun spaced (code ++ s.behind layout cs)).1.countP (!isBlank ·) ≠
      code.countP (!isBlank ·) := by
  have hline' : StaysOnLine (code ++ s.gap) := by
    intro d hd
    rcases List.mem_append.mp hd with hd | hd
    · exact hline d hd
    · rw [gap] at hd
      split at hd
      · cases hd
      · obtain rfl := List.mem_singleton.mp hd
        decide
  have hcount : (code ++ s.gap).countP (!isBlank ·) = code.countP (!isBlank ·) := by
    rw [gap]
    split
    · rw [List.append_nil]
    · rw [List.countP_append]
      rfl
  obtain ⟨rest, hbehind, hrest⟩ : ∃ rest, s.behind layout cs = s.gap ++ rest ∧
      rest.head? ≠ some ' ' := by
    by_cases hconditions : s.conditions = []
    · refine ⟨'\n' :: printedChars layout cs, ?_, (fun h => by cases h)⟩
      rw [behind_nil hconditions, gap, if_pos hconditions, List.nil_append]
    · obtain ⟨rest, hbehind⟩ := s.behind_of_conditions layout cs hconditions
      exact ⟨_, hbehind, (fun h => by cases h)⟩
  rw [hbehind, ← List.append_assoc, ← hcount]
  by_cases hbrackets : SpacedBrackets spaced (code ++ s.gap)
  · -- The first condition begins with a space, and its bracket is taken for one of the code.
    have hfirst : ∃ c, s.conditions.head? = some c ∧ c.gate.text.toList.head? = some ' ' := by
      rw [KeepsCode, not_and] at hkeeps
      simpa using hkeeps hbrackets
    obtain ⟨c, hc, hspace⟩ := hfirst
    obtain ⟨conditions, hconditions⟩ := List.head?_eq_some_iff.mp hc
    obtain ⟨rest', hbehind'⟩ := behind_cons layout hconditions cs
    have hgap : s.gap = [' '] := if_neg (by rw [hconditions]; exact List.cons_ne_nil _ _)
    have hbracket : rest = '[' :: (c.gate.text.toList ++ ']' :: rest') := by
      rw [hbehind, hgap] at hbehind'
      exact (List.cons.inj hbehind').2
    have hhead : (c.gate.text.toList ++ ']' :: rest').head? = some ' ' := by
      rw [List.head?_append, hspace]
      rfl
    obtain ⟨more, hmore⟩ := Piece.codeRun_bracket_space hhead
      (Piece.spacedBehind spaced (code ++ s.gap))
    rw [Piece.codeRun_append_of_spacedBrackets hline' hbrackets, hbracket, hmore,
      List.countP_append, List.countP_cons_of_pos rfl]
    omega
  · obtain ⟨before, after, hsplit, hrun⟩ :=
      Piece.codeRun_of_not_spacedBrackets hline' hbrackets hrest
    rw [hrun, hsplit, List.countP_append, List.countP_cons_of_pos rfl]
    omega

theorem misread_code {text : String} (hs : s.instruction = .code text) (hwell : s.WellFormed)
    (hkeeps : ¬s.KeepsCode false text.toList) (cs : List Clause) :
    s.instruction.Misread layout n (s.behind layout cs) := by
  intro o
  have hinstruction := hwell.1
  rw [hs] at hinstruction ⊢
  have hcount := countP_codeRun_behind layout hinstruction.1 hkeeps cs
  rw [Instruction.chars, List.cons_append, lexed_code]
  refine ⟨_, _, _, rfl, (fun h => by cases h), rfl, ?_⟩
  intro j after hread
  obtain ⟨rfl, -⟩ := Prod.mk.inj (Except.ok.inj hread)
  intro heq
  have htext := congrArg String.toList (Instruction.code.inj heq)
  rw [String.toList_ofList, List.drop_one, List.tail_cons] at htext
  rw [← htext, countP_trimEnd] at hcount
  exact hcount (by rw [htext])

theorem misread_waitWhile {text : String} (hs : s.instruction = .waitWhile text)
    (hwell : s.WellFormed) (hkeeps : ¬s.KeepsCode true text.toList) (cs : List Clause) :
    s.instruction.Misread layout n (s.behind layout cs) := by
  intro o
  have hinstruction := hwell.1
  rw [hs] at hinstruction ⊢
  have hcount := countP_codeRun_behind layout hinstruction.1 hkeeps cs
  have hspace : (Piece.codeRun false (' ' :: (text.toList ++ s.behind layout cs))).1 =
      ' ' :: (Piece.codeRun true (text.toList ++ s.behind layout cs)).1 := by
    rw [Piece.codeRun_cons (by decide) (fun h => by cases h)]
    rfl
  rw [Instruction.chars, List.append_assoc, List.cons_append, lexed_waitWhile (stops_cons rfl _)]
  refine ⟨_, _, _, rfl, (fun h => by cases h), rfl, ?_⟩
  intro j after hread
  obtain ⟨rfl, -⟩ := Prod.mk.inj (Except.ok.inj hread)
  intro heq
  have htext := congrArg String.toList (Instruction.waitWhile.inj heq)
  rw [String.toList_ofList, List.drop_left, hspace, trim_cons rfl] at htext
  refine hcount ?_
  rw [← countP_trim, htext]

/-! ### Statements -/

/-- On the largest line, the head of a label stands behind the instruction. -/
theorem label_behind {cs : List Clause} (hcs : ∀ c ∈ cs, c.Printed)
    (hruns : s.RunsInto n cs.head? .colon) (o : Nat) :
    ∃ colon name rest, lexed o n (s.behind layout cs) = colon :: name :: rest ∧
      colon.kind = .colon ∧ colon.line = saturated (1 + n) ∧ name.kind ≠ .string := by
  obtain ⟨hconditions, hfull, hnext⟩ := hruns
  obtain ⟨c, hc, hkind⟩ := Option.map_eq_some_iff.mp hnext
  obtain ⟨cs, rfl⟩ := List.head?_eq_some_iff.mp hc
  have hprinted := hcs c List.mem_cons_self
  rw [behind_nil hconditions, lexed_feed]
  cases c with
  | label name =>
      have hname : IsWord name.toList := hprinted
      have hline (k : Nat) : saturated (1 + (n + 1 + k)) = saturated (1 + n) := by
        rw [Nat.add_assoc n]
        exact saturated_add_of_linesFull hfull _
      rw [printedChars]
      split
      · rw [List.cons_append, List.nil_append, lexed_feed, lexed_colon,
          lexed_word hname (stops_cons rfl _)]
        exact ⟨_, _, _, rfl, rfl, hline 1, (fun h => by cases h)⟩
      · rw [List.nil_append, lexed_colon, lexed_word hname (stops_cons rfl _)]
        exact ⟨_, _, _, rfl, rfl, hline 0, (fun h => by cases h)⟩
  | statement s =>
      rw [Clause.firstKind] at hkind
      cases hs : s.instruction <;> rw [hs] at hkind <;> cases hkind
  | skipped | stray => exact hprinted.elim

/-- On the largest line, the word with which a statement begins stands behind the instruction. -/
theorem word_behind {cs : List Clause} (hcs : ∀ c ∈ cs, c.Printed)
    (hruns : s.RunsInto n cs.head? .word) (o : Nat) :
    ∃ text start rest, lexed o n (s.behind layout cs) =
      ⟨.word, text, start, saturated (1 + n)⟩ :: rest ∧ IsWord text := by
  obtain ⟨hconditions, hfull, hnext⟩ := hruns
  obtain ⟨c, hc, hkind⟩ := Option.map_eq_some_iff.mp hnext
  obtain ⟨cs, rfl⟩ := List.head?_eq_some_iff.mp hc
  rw [behind_nil hconditions, lexed_feed]
  obtain ⟨m, text, start, rest, hm, hfirst, hword⟩ := Clause.lexed_first layout (n := n + 1)
    (hcs c List.mem_cons_self) cs (o + utf8Length ['\n'])
  rw [hfirst, hkind, (saturated_eq_iff (show n < m by omega)).mpr hfull]
  exact ⟨text, start, rest, rfl, hword hkind⟩

/-- The instruction of a statement that is not reprintable is misread. -/
theorem misread (layout : Layout) {cs : List Clause} (hwell : s.WellFormed)
    (hcs : ∀ c ∈ cs, c.Printed) (hback : ¬s.Reprintable n cs.head?) :
    s.instruction.Misread layout n (s.behind layout cs) := by
  have hbreaks := s.behind_breaks layout cs
  have hnamed {k : Keyword} {f : String → Instruction} {name : String}
      (hkeyword : ∀ w ls, Clause.keyword k w ls =
        .ok (f ((Clause.argument w ls).1.getD ""), (Clause.argument w ls).2))
      (hf : Function.Injective f) (hchars : (f "").chars layout = k.word)
      (hruns : ¬(name = "" → ¬s.RunsInto n cs.head? .colon ∧ ¬s.RunsInto n cs.head? .word)) :
      (f name).Misread layout n (s.behind layout cs) := by
    obtain ⟨rfl, hruns⟩ := Classical.not_imp.mp hruns
    by_cases hcolon : s.RunsInto n cs.head? .colon
    · exact Instruction.misread_of_label hchars hbreaks (label_behind hcs hcolon)
    · have hword : s.RunsInto n cs.head? .word := by
        by_contra hword
        exact hruns fun _ => ⟨hcolon, hword⟩
      exact Instruction.misread_of_word hkeyword hf hchars hbreaks (word_behind hcs hword)
  rw [Reprintable] at hback
  cases hs : s.instruction with
  | choice number text target =>
      rw [hs] at hback
      by_cases hquote : '"' ∈ text.toList
      · exact Instruction.misread_choice_of_quote hquote
      · obtain ⟨hfeed, hfull⟩ := Classical.not_imp.mp fun h => hback ⟨hquote, h⟩
        exact Instruction.misread_choice_of_feed hquote hfeed hfull
  | code text =>
      rw [hs] at hback
      exact hs ▸ misread_code hs hwell hback cs
  | pause seconds =>
      rw [hs] at hback
      exact Instruction.misread_pause hback hbreaks
  | dialog name =>
      rw [hs] at hback
      exact hnamed (k := .dialog) (fun _ _ => rfl) (fun _ _ => Instruction.dialog.inj) rfl hback
  | override name =>
      rw [hs] at hback
      exact hnamed (k := .override) (fun _ _ => rfl) (fun _ _ => Instruction.override.inj) rfl hback
  | shutUp =>
      rw [hs] at hback
      exact Instruction.misread_of_label (k := .shutUp) rfl hbreaks
        (label_behind hcs (not_not.mp hback))
  | waitWhile text =>
      rw [hs] at hback
      exact hs ▸ misread_waitWhile hs hwell hback cs
  | waitFor name =>
      rw [hs] at hback
      exact hnamed (k := .waitFor) (fun _ _ => rfl) (fun _ _ => Instruction.waitFor.inj) rfl hback
  | say | goto | parrot | allowObjects | limit =>
      rw [hs] at hback
      exact absurd trivial hback

end Statement

/-- A statement that is not reprintable is not read, or another one is. -/
theorem Clause.read_misprinted (layout : Layout) {s : Statement} {cs : List Clause}
    (hwell : s.WellFormed) (hcs : ∀ c ∈ cs, c.Printed) (hback : ¬s.Reprintable n cs.head?)
    (o : Nat) :
    ∃ l rest, lexed o n (printedChars layout (.statement s :: cs)) = l :: rest ∧
      ∀ c after, read true l rest = .ok (c, after) →
        ∃ s', c = .statement s' ∧ s'.withoutLines ≠ s.withoutLines := by
  obtain ⟨l, rest, reading, hfirst, hkind, hreading, hmisread⟩ :=
    Statement.misread layout hwell hcs hback o
  refine ⟨l, rest, by rw [printedChars_statement, hfirst], ?_⟩
  intro c after hread
  rw [read_of_ne_colon hkind, inner, hreading] at hread
  obtain ⟨⟨j, behind⟩, hj, hstatement⟩ := ok_of_bind hread
  obtain ⟨rfl, -⟩ := Prod.mk.inj (Except.ok.inj hstatement)
  refine ⟨_, rfl, fun heq => hmisread j behind hj ?_⟩
  exact congrArg Statement.instruction heq

end DialogScript
