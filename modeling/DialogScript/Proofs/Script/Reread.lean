import DialogScript.Proofs.Script.Printed

/-!
# What is printed is read back

An instruction that is printed is read back, lexeme by lexeme, as long as what stands behind it is
told apart from it: a keyword without its argument takes no lexeme from the next line, and a run of
code ends before the conditions.

## Main definitions

* `Instruction.ReadsBack`: an instruction is read back before a text

## Main results

* `Statement.readsBack`: a reprintable statement has its instruction read back
* `Clause.read_printed`: and it is read back itself, its conditions on the lines of the print
-/

namespace DialogScript

variable {layout : Layout} {n : Nat} {cs : List Char} {i : Instruction} {k : Keyword}

/-- The instruction, printed after `n` line feeds before a text, is read back. -/
def Instruction.ReadsBack (layout : Layout) (n : Nat) (cs : List Char) (i : Instruction) : Prop :=
  ∀ o, ∃ l rest start, lexed o n (i.chars layout ++ cs) = l :: rest ∧ l.kind ≠ .colon ∧
    Clause.instruction? l rest =
      some (.ok (i, lexed start (n + (i.chars layout).count '\n') cs))

namespace Clause

variable {w l : Lexeme} {ls : List Lexeme}

theorem expect_lexeme {kind : TokenKind} {text : List Char} {start : Nat} {line : UInt32}
    {anchor : Lexeme} (e : Expectation) (hline : line = anchor.line) :
    expect kind e anchor (⟨kind, text, start, line⟩ :: ls) =
      .ok (⟨kind, text, start, line⟩, ls) :=
  if_pos ⟨rfl, hline⟩

/-- An arrow and a label are read back. -/
theorem target_lexed (anchor : Lexeme) {name : String} (hanchor : anchor.line = saturated (1 + n))
    (hname : IsWord name.toList) (hcs : Breaks cs) (o : Nat) :
    ∃ start, target anchor (lexed o n ('-' :: '>' :: ' ' :: (name.toList ++ cs))) =
      .ok (name, lexed start n cs) := by
  rw [lexed_arrow, lexed_space (hname.stops_gap cs), lexed_word hname (hcs.stops rfl rfl), target,
    expect_lexeme .arrow hanchor.symm]
  simp only [bind, Except.bind]
  rw [expect_lexeme .target hanchor.symm]
  refine ⟨o + utf8Length ['-', '>'] + utf8Length [' '] + utf8Length name.toList, ?_⟩
  simp only [pure, Except.pure, Lexeme.string, String.ofList_toList]

/-! ### Keywords -/

theorem argument_word {text : List Char} {start : Nat} {line : UInt32} (hline : line = w.line) :
    argument w (⟨.word, text, start, line⟩ :: ls) = (some (String.ofList text), ls) :=
  if_pos ⟨rfl, hline⟩

theorem argument_of_not_beginsOn (hls : ¬BeginsOn w.line .word ls) :
    argument w ls = (none, ls) := by
  cases ls with
  | nil => rfl
  | cons l ls => exact if_neg fun h => hls (beginsOn_cons.mpr h)

/-- A keyword without a colon behind it begins an instruction. -/
theorem instruction?_keyword {o : Nat} {line : UInt32} (hls : ¬BeginsOn line .colon ls) :
    instruction? ⟨.word, k.word, o, line⟩ ls = some (keyword k ⟨.word, k.word, o, line⟩ ls) := by
  have hcommand : word.command ⟨.word, k.word, o, line⟩ ls =
      keyword k ⟨.word, k.word, o, line⟩ ls := by
    rw [word.command, Keyword.ofWord?_word]
  cases ls with
  | nil => exact congrArg some hcommand
  | cons l ls =>
      rw [← hcommand]
      exact congrArg some (if_neg fun h => hls (beginsOn_cons.mpr h))

/-- A keyword stands at the front of its instruction in print. -/
theorem lexed_keyword (k : Keyword) (hcs : Breaks cs) (o : Nat) :
    lexed o n (k.word ++ cs) =
      ⟨.word, k.word, o, saturated (1 + n)⟩ :: lexed (o + utf8Length k.word) n cs :=
  lexed_word k.isWord_word (hcs.stops rfl rfl)

end Clause

namespace Instruction

open Clause

/-- A keyword that takes a word is read back with its word. -/
theorem readsBack_applied {f : Option String → Instruction} {argument : List Char}
    (hkeyword : ∀ w ls, keyword k w ls = .ok (f (Clause.argument w ls).1, (Clause.argument w ls).2))
    (hchars : i.chars layout = k.applied argument) (hargument : IsWord argument)
    (hi : f (some (String.ofList argument)) = i) (hcs : Breaks cs) : i.ReadsBack layout n cs := by
  intro o
  have hcount : (i.chars layout).count '\n' = 0 := by
    rw [hchars, Keyword.count_feed_applied hargument.count_feed]
  rw [hcount, hchars, Keyword.applied_of_ne_nil hargument.ne_nil, List.append_assoc,
    List.cons_append, lexed_keyword k (breaks_space _), lexed_space (hargument.stops_gap cs),
    lexed_word hargument (hcs.stops rfl rfl)]
  refine ⟨_, _, o + utf8Length k.word + utf8Length [' '] + utf8Length argument, rfl,
    (fun h => by cases h), ?_⟩
  have hcolon : ¬BeginsOn (saturated (1 + n)) .colon
      (⟨.word, argument, o + utf8Length k.word + utf8Length [' '], saturated (1 + n)⟩ ::
        lexed (o + utf8Length k.word + utf8Length [' '] + utf8Length argument) n cs) :=
    not_beginsOn_cons (fun h => by cases h)
  rw [instruction?_keyword hcolon, hkeyword, argument_word rfl, hi, Nat.add_zero]

/-- A bare keyword is read back if neither a colon nor a word follows it on its line. -/
theorem readsBack_bare {f : Option String → Instruction}
    (hkeyword : ∀ w ls, keyword k w ls = .ok (f (Clause.argument w ls).1, (Clause.argument w ls).2))
    (hchars : i.chars layout = k.word) (hi : f none = i) (hcs : Breaks cs)
    (hcolon : ∀ o, ¬BeginsOn (saturated (1 + n)) .colon (lexed o n cs))
    (hword : ∀ o, ¬BeginsOn (saturated (1 + n)) .word (lexed o n cs)) :
    i.ReadsBack layout n cs := by
  intro o
  rw [hchars, k.isWord_word.count_feed, lexed_keyword k hcs]
  refine ⟨_, _, o + utf8Length k.word, rfl, (fun h => by cases h), ?_⟩
  rw [instruction?_keyword (hcolon _), hkeyword, argument_of_not_beginsOn (hword _), hi,
    Nat.add_zero]

/-- The keyword that takes nothing is read back if no colon follows it on its line. -/
theorem readsBack_shutUp (hcs : Breaks cs)
    (hcolon : ∀ o, ¬BeginsOn (saturated (1 + n)) .colon (lexed o n cs)) :
    shutUp.ReadsBack layout n cs := by
  intro o
  have hcount : (shutUp.chars layout).count '\n' = 0 := Keyword.shutUp.isWord_word.count_feed
  rw [hcount, chars, lexed_keyword .shutUp hcs]
  refine ⟨_, _, o + utf8Length Keyword.shutUp.word, rfl, (fun h => by cases h), ?_⟩
  rw [instruction?_keyword (hcolon _), keyword, Nat.add_zero]
  rfl

/-- A keyword that takes a number is read back with its number. -/
theorem readsBack_numeral {α : Type} {read? : List Char → Option α} {e : Expectation} {x : α}
    {f : α → Instruction} {t : List Char}
    (hkeyword : ∀ w ls, keyword k w ls = (do
      let (x, ls) ← numeral read? e w ls
      return (f x, ls)))
    (hchars : (f x).chars layout = k.applied t) (ht : IsNumber t) (hread : read? t = some x)
    (hcs : Breaks cs) : (f x).ReadsBack layout n cs := by
  intro o
  have hcount : ((f x).chars layout).count '\n' = 0 := by
    rw [hchars, Keyword.count_feed_applied ht.count_feed]
  rw [hcount, hchars, Keyword.applied_of_ne_nil ht.ne_nil, List.append_assoc, List.cons_append,
    lexed_keyword k (breaks_space _), lexed_space (ht.stops_gap cs),
    lexed_number ht (hcs.stops rfl rfl)]
  refine ⟨_, _, o + utf8Length k.word + utf8Length [' '] + utf8Length t, rfl,
    (fun h => by cases h), ?_⟩
  have hcolon : ¬BeginsOn (saturated (1 + n)) .colon
      (⟨.number, t, o + utf8Length k.word + utf8Length [' '], saturated (1 + n)⟩ ::
        lexed (o + utf8Length k.word + utf8Length [' '] + utf8Length t) n cs) :=
    not_beginsOn_cons (fun h => by cases h)
  rw [instruction?_keyword hcolon, hkeyword, numeral, expect_lexeme e rfl]
  simp only [bind, Except.bind, hread]
  rfl

/-! ### Lines and choices -/

theorem readsBack_say {actor text : String} (hi : (say actor text).WellFormed) :
    (say actor text).ReadsBack layout n cs := by
  intro o
  have hchars : (say actor text).chars layout ++ cs =
      actor.toList ++ ':' :: ' ' :: '"' :: (text.toList ++ '"' :: cs) := by
    simp [chars]
  have hcount : ((say actor text).chars layout).count '\n' = text.toList.count '\n' := by
    rw [chars, List.count_append, hi.1.count_feed, List.count_cons_of_ne (by decide),
      List.count_cons_of_ne (by decide), count_feed_delimited (by decide) (by decide), Nat.zero_add]
  rw [hchars, hcount, lexed_word hi.1 (stops_cons rfl _), lexed_colon,
    lexed_space (stops_cons rfl _), lexed_string hi.2]
  refine ⟨_, _, o + utf8Length actor.toList + utf8Length [':'] + utf8Length [' '] +
    utf8Length ('"' :: (text.toList ++ ['"'])), rfl, (fun h => by cases h), congrArg some ?_⟩
  rw [word.eq_def]
  dsimp only
  rw [if_pos ⟨rfl, rfl⟩, expect_lexeme .sayText rfl]
  simp only [bind, Except.bind, pure, Except.pure, Lexeme.string, Lexeme.unquoted,
    stripped_between, String.ofList_toList]

theorem readsBack_goto {label : String} (hi : (goto label).WellFormed) (hcs : Breaks cs) :
    (goto label).ReadsBack layout n cs := by
  intro o
  have hcount : ((goto label).chars layout).count '\n' = 0 := by
    rw [chars, List.count_cons_of_ne (by decide), List.count_cons_of_ne (by decide),
      List.count_cons_of_ne (by decide), IsWord.count_feed hi]
  obtain ⟨start, htarget⟩ := target_lexed (n := n) ⟨.arrow, ['-', '>'], o, saturated (1 + n)⟩ rfl hi
    hcs o
  rw [lexed_arrow] at htarget
  rw [hcount, chars, List.cons_append, List.cons_append, List.cons_append, lexed_arrow]
  refine ⟨_, _, start, rfl, (fun h => by cases h), congrArg some ?_⟩
  rw [htarget]
  rfl

end Instruction

/-- The text of a choice begins with a dollar sign or a quote in print. -/
theorem printedChoiceText_first (text : List Char) :
    ∃ c tail, printedChoiceText text = c :: tail ∧ (c = '$' ∨ c = '"') := by
  rw [printedChoiceText]
  split
  · rename_i hid
    rw [isTextId.eq_def] at hid
    split at hid
    · exact ⟨'$', _, rfl, .inl rfl⟩
    · cases hid
  · exact ⟨'"', _, rfl, .inr rfl⟩

namespace Clause

/-- A colon behind the number of a choice is passed over. -/
theorem passColon_lexed (layout : Layout) (number : Lexeme)
    (hnumber : number.line = saturated (1 + n)) (text cs : List Char) (o : Nat) :
    ∃ start, passColon number (lexed o n ((if layout.choiceColon = true then [':'] else []) ++
      ' ' :: (printedChoiceText text ++ cs))) = lexed start n (printedChoiceText text ++ cs) := by
  obtain ⟨c, tail, htext, hc⟩ := printedChoiceText_first text
  have hgap : Stops Piece.isGap (printedChoiceText text ++ cs) := by
    rw [htext]
    rcases hc with rfl | rfl <;> exact stops_cons rfl _
  split
  · rw [List.cons_append, List.nil_append, lexed_colon, lexed_space hgap]
    exact ⟨_, if_pos ⟨rfl, hnumber.symm⟩⟩
  · rw [List.nil_append, lexed_space hgap]
    refine ⟨o + utf8Length [' '], ?_⟩
    obtain ⟨p, rest, hscan, hkind⟩ : ∃ p rest, Piece.scan? (printedChoiceText text ++ cs) =
        some (p, rest) ∧ (p.kind = .textId ∨ p.kind = .string) := by
      rw [htext, List.cons_append]
      rcases hc with rfl | rfl
      · exact ⟨_, _, rfl, .inl rfl⟩
      · exact ⟨_, _, rfl, .inr rfl⟩
    have htrivia : p.kind.isTrivia = false := by rcases hkind with h | h <;> rw [h] <;> rfl
    rw [lexed_of_scan? hscan htrivia]
    refine if_neg fun h => ?_
    rcases hkind with hkind | hkind <;> rw [hkind] at h <;> cases h.1

/-- A choice is read from its text on. -/
theorem choice_lexed (layout : Layout) (n : Nat) (cs : List Char) (number : Int32)
    (text target' : String) (o : Nat) :
    ∃ rest start, lexed o n ((Instruction.choice number text target').chars layout ++ cs) =
        ⟨.number, Numeral.ofInt32 number, o, saturated (1 + n)⟩ :: rest ∧
      choice ⟨.number, Numeral.ofInt32 number, o, saturated (1 + n)⟩ rest = (do
        let (text, ls) ← choiceText ⟨.number, Numeral.ofInt32 number, o, saturated (1 + n)⟩
          (lexed start n (printedChoiceText text.toList ++
            ' ' :: '-' :: '>' :: ' ' :: (target'.toList ++ cs)))
        let (name, ls) ← target ⟨.number, Numeral.ofInt32 number, o, saturated (1 + n)⟩ ls
        return (.choice number text name, ls)) := by
  have hchars : (Instruction.choice number text target').chars layout ++ cs =
      Numeral.ofInt32 number ++ ((if layout.choiceColon = true then [':'] else []) ++
        ' ' :: (printedChoiceText text.toList ++
          ' ' :: '-' :: '>' :: ' ' :: (target'.toList ++ cs))) := by
    simp [Instruction.chars]
  have hstops (more : List Char) : Stops (fun c => c.isDigit || c = '.')
      ((if layout.choiceColon = true then [':'] else []) ++ ' ' :: more) := by
    split <;> exact stops_cons rfl _
  rw [hchars, lexed_number (Numeral.isNumber_ofInt32 number) (hstops _)]
  obtain ⟨start, hstart⟩ := passColon_lexed (n := n) layout
    ⟨.number, Numeral.ofInt32 number, o, saturated (1 + n)⟩ rfl text.toList
    (' ' :: '-' :: '>' :: ' ' :: (target'.toList ++ cs)) (o + utf8Length (Numeral.ofInt32 number))
  refine ⟨_, start, rfl, ?_⟩
  rw [choice, Numeral.int32?_ofInt32]
  dsimp only
  rw [hstart]

/-- The text of a choice is read back if it holds no quote. -/
theorem choiceText_lexed (number : Lexeme) (hnumber : number.line = saturated (1 + n))
    {text : String} (htext : '"' ∉ text.toList) (cs : List Char) (o : Nat) :
    ∃ start, choiceText number (lexed o n (printedChoiceText text.toList ++ ' ' :: cs)) =
      .ok (text, lexed start (n + text.toList.count '\n') (' ' :: cs)) := by
  rw [printedChoiceText]
  split
  · rename_i hid
    rw [isTextId.eq_def] at hid
    split at hid
    · rename_i chars id heq
      have hchars : ∀ c ∈ id, Piece.isWordChar c = true :=
        List.all_eq_true.mp (Bool.and_eq_true_iff.mp hid).2
      have hid : ∀ c ∈ id, Piece.isTextIdChar c = true := by
        intro c hc
        have hword := hchars c hc
        rw [Piece.isTextIdChar, Bool.not_eq_true', Bool.eq_false_iff]
        intro hstop
        simp only [Bool.or_eq_true, decide_eq_true_eq] at hstop
        rcases hstop with ((rfl | rfl) | rfl) | rfl <;> cases hword
      have hcount : ('$' :: id).count '\n' = 0 := by
        rw [List.count_cons_of_ne (by decide), count_feed_eq_zero hchars rfl]
      rw [heq, List.cons_append, lexed_textId hid (stops_cons rfl _), hcount]
      refine ⟨o + utf8Length ('$' :: id), ?_⟩
      rw [choiceText, if_neg (fun h => by cases h.2), if_pos ⟨hnumber.symm, rfl⟩, Lexeme.string,
        ← heq, String.ofList_toList]
      rfl
    · cases hid
  · rw [List.cons_append, List.append_assoc, List.cons_append, List.nil_append, lexed_string htext]
    refine ⟨o + utf8Length ('"' :: (text.toList ++ ['"'])), ?_⟩
    rw [choiceText, if_pos ⟨hnumber.symm, rfl⟩, Lexeme.unquoted, stripped_between,
      String.ofList_toList]

end Clause

namespace Instruction

open Clause

theorem readsBack_choice {number : Int32} {text target : String}
    (hi : (choice number text target).WellFormed) (htext : '"' ∉ text.toList)
    (hfull : '\n' ∈ text.toList → LinesFull n) (hcs : Breaks cs) :
    (choice number text target).ReadsBack layout n cs := by
  intro o
  have hcount : ((choice number text target).chars layout).count '\n' =
      text.toList.count '\n' := by
    have hnumber := (Numeral.isNumber_ofInt32 number).count_feed
    have hcolon : (if layout.choiceColon = true then [':'] else []).count '\n' = 0 := by
      split <;> rfl
    have hprinted : (printedChoiceText text.toList).count '\n' = text.toList.count '\n' := by
      rw [printedChoiceText]
      split
      · rfl
      · exact count_feed_delimited (by decide) (by decide) _
    rw [chars, List.count_append, List.count_append, hnumber, hcolon,
      List.count_cons_of_ne (by decide), List.count_append, hprinted,
      List.count_cons_of_ne (by decide), List.count_cons_of_ne (by decide),
      List.count_cons_of_ne (by decide), List.count_cons_of_ne (by decide), IsWord.count_feed hi]
    omega
  obtain ⟨rest, start, hfirst, hchoice⟩ := choice_lexed layout n cs number text target o
  obtain ⟨start', htext'⟩ := choiceText_lexed (n := n)
    ⟨.number, Numeral.ofInt32 number, o, saturated (1 + n)⟩ rfl htext
    ('-' :: '>' :: ' ' :: (target.toList ++ cs)) start
  -- The text of a choice may hold line feeds, but then the arrow stands on the largest line too.
  have hline : saturated (1 + n) = saturated (1 + (n + text.toList.count '\n')) := by
    by_cases hfeed : '\n' ∈ text.toList
    · exact (saturated_add_of_linesFull (hfull hfeed) _).symm
    · rw [List.count_eq_zero.mpr hfeed, Nat.add_zero]
  obtain ⟨start'', htarget⟩ := target_lexed (n := n + text.toList.count '\n')
    ⟨.number, Numeral.ofInt32 number, o, saturated (1 + n)⟩ hline hi hcs
    (start' + utf8Length [' '])
  refine ⟨_, rest, start'', hfirst, (fun h => by cases h), congrArg some ?_⟩
  rw [hchoice, htext', hcount]
  simp only [bind, Except.bind]
  rw [lexed_space (stops_cons rfl _), htarget]
  rfl

end Instruction

/-! ### Code -/

namespace Statement

variable {s : Statement}

theorem behind_of_conditions (s : Statement) (layout : Layout) (cs : List Clause)
    (hs : s.conditions ≠ []) :
    ∃ rest, s.behind layout cs = s.gap ++ '[' :: rest := by
  obtain ⟨c, conditions, hconditions⟩ := List.exists_cons_of_ne_nil hs
  obtain ⟨rest, hbehind⟩ := behind_cons layout hconditions cs
  exact ⟨_, by rw [hbehind, gap, if_neg hs]; rfl⟩

/-- A run of code that is told apart from the conditions ends before them. -/
theorem codeRun_behind (layout : Layout) {spaced : Bool} {code : List Char}
    (hline : StaysOnLine code) (hkeeps : s.KeepsCode spaced code) (cs : List Clause) :
    ∃ rest, Piece.codeRun spaced (code ++ s.behind layout cs) = (code ++ s.gap, rest) ∧
      s.behind layout cs = s.gap ++ rest ∧ (s.gap ≠ [] → Stops Piece.isGap rest) := by
  obtain ⟨hbrackets, hfirst⟩ := hkeeps
  cases hconditions : s.conditions with
  | nil =>
      rw [gap, if_pos hconditions, List.append_nil] at hbrackets ⊢
      rw [behind_nil hconditions, Piece.codeRun_append_of_spacedBrackets hline hbrackets,
        Piece.codeRun_feed, List.append_nil]
      exact ⟨_, rfl, rfl, fun h => absurd rfl h⟩
  | cons c conditions =>
      obtain ⟨rest, hbehind⟩ := behind_cons layout hconditions cs
      have hgap : s.gap = [' '] := if_neg (by rw [hconditions]; exact List.cons_ne_nil _ _)
      rw [hgap] at hbrackets ⊢
      have hline' : StaysOnLine (code ++ [' ']) := by
        intro d hd
        rcases List.mem_append.mp hd with hd | hd
        · exact hline d hd
        · obtain rfl := List.mem_singleton.mp hd
          decide
      have hspaced : Piece.spacedBehind spaced (code ++ [' ']) = true := by
        rw [Piece.spacedBehind, List.foldl_append]
        rfl
      have hhead : (c.gate.text.toList ++ ']' :: rest).head? ≠ some ' ' := by
        have hc := hfirst c (by rw [hconditions]; rfl)
        cases htext : c.gate.text.toList with
        | nil => exact fun h => by cases h
        | cons d ds =>
            rw [htext] at hc
            exact hc
      have hsplit : code ++ s.behind layout cs =
          (code ++ [' ']) ++ '[' :: (c.gate.text.toList ++ ']' :: rest) := by
        rw [hbehind, List.append_assoc, List.cons_append, List.nil_append]
      rw [hsplit, Piece.codeRun_append_of_spacedBrackets hline' hbrackets, hspaced,
        Piece.codeRun_bracket hhead, List.append_nil]
      exact ⟨_, rfl, hbehind, fun _ => stops_cons rfl _⟩

/-- What is left behind a run of code is what stands behind the instruction. -/
theorem lexed_gap {rest : List Char} {cs : List Clause} (hrest : s.behind layout cs = s.gap ++ rest)
    (hstops : s.gap ≠ [] → Stops Piece.isGap rest) (o : Nat) :
    lexed (o + utf8Length s.gap) n rest = lexed o n (s.behind layout cs) := by
  rw [hrest]
  rw [gap] at hstops ⊢
  split at hstops
  · rename_i hnil
    rw [if_pos hnil]
    rfl
  · rename_i hne
    rw [if_neg hne]
    exact (lexed_space (hstops (List.cons_ne_nil _ _))).symm

theorem readsBack_code {text : String} (hs : s.instruction = .code text) (hwell : s.WellFormed)
    (hkeeps : s.KeepsCode false text.toList) (cs : List Clause) :
    s.instruction.ReadsBack layout n (s.behind layout cs) := by
  intro o
  obtain ⟨hinstruction, -⟩ := hwell
  rw [hs] at hinstruction ⊢
  obtain ⟨hline, htrim⟩ := hinstruction
  obtain ⟨rest, hrun, hrest, hstops⟩ := codeRun_behind layout hline hkeeps cs
  have hcount : ((Instruction.code text).chars layout).count '\n' = 0 := by
    rw [Instruction.chars, List.count_cons_of_ne (by decide), hline.count_feed]
  have htrimmed : trimEnd (text.toList ++ s.gap) = text.toList := by
    rw [gap]
    split
    · rw [List.append_nil, htrim]
    · rw [trimEnd_concat rfl, htrim]
  rw [Instruction.chars, List.cons_append, lexed_code, hrun]
  refine ⟨_, _, o + utf8Length ('!' :: text.toList), rfl, (fun h => by cases h), ?_⟩
  have hoffset : o + utf8Length ('!' :: (text.toList ++ s.gap)) =
      o + utf8Length ('!' :: text.toList) + utf8Length s.gap := by
    rw [← List.cons_append, utf8Length_append, Nat.add_assoc]
  have hcount' : ('!' :: text.toList).count '\n' = 0 := hcount
  rw [hoffset, lexed_gap hrest hstops, hcount', Nat.add_zero, Clause.instruction?]
  simp only [List.drop_one, List.tail_cons, htrimmed, String.ofList_toList]

theorem readsBack_waitWhile {text : String} (hs : s.instruction = .waitWhile text)
    (hwell : s.WellFormed) (hkeeps : s.KeepsCode true text.toList) (cs : List Clause) :
    s.instruction.ReadsBack layout n (s.behind layout cs) := by
  intro o
  obtain ⟨hinstruction, -⟩ := hwell
  rw [hs] at hinstruction ⊢
  obtain ⟨hline, htrim⟩ := hinstruction
  obtain ⟨rest, hrun, hrest, hstops⟩ := codeRun_behind layout hline hkeeps cs
  have hcount : ((Instruction.waitWhile text).chars layout).count '\n' = 0 := by
    rw [Instruction.chars, List.count_append, List.count_cons_of_ne (by decide), hline.count_feed]
    rfl
  have htrimmed : trim (' ' :: (text.toList ++ s.gap)) = text.toList := by
    rw [trim_cons rfl, gap]
    split
    · rw [List.append_nil, htrim]
    · rw [trim_concat rfl, htrim]
  have hspace : Piece.codeRun false (' ' :: (text.toList ++ s.behind layout cs)) =
      (' ' :: (text.toList ++ s.gap), rest) := by
    rw [Piece.codeRun_cons (by decide) (fun h => by cases h)]
    exact congrArg (fun r : List Char × List Char => (' ' :: r.1, r.2)) hrun
  rw [hcount, Nat.add_zero, Instruction.chars, List.append_assoc, List.cons_append,
    lexed_waitWhile (stops_cons rfl _), hspace]
  refine ⟨_, _, o + utf8Length (Piece.waitWhileWord ++ ' ' :: text.toList), rfl,
    (fun h => by cases h), ?_⟩
  have hoffset : o + utf8Length (Piece.waitWhileWord ++ ' ' :: (text.toList ++ s.gap)) =
      o + utf8Length (Piece.waitWhileWord ++ ' ' :: text.toList) + utf8Length s.gap := by
    rw [← List.cons_append, ← List.append_assoc, utf8Length_append, Nat.add_assoc]
  rw [hoffset, lexed_gap hrest hstops, Clause.instruction?]
  simp only [List.drop_left, htrimmed, String.ofList_toList]

/-! ### Statements -/

/-- The instruction of a reprintable statement is read back. -/
theorem readsBack (layout : Layout) {cs : List Clause} (hwell : s.WellFormed)
    (hcs : ∀ c ∈ cs, c.Printed) (hback : s.Reprintable n cs.head?) :
    s.instruction.ReadsBack layout n (s.behind layout cs) := by
  have hbreaks := s.behind_breaks layout cs
  have hquiet {kind : TokenKind} (hkind : kind ≠ .condition) (hruns : ¬s.RunsInto n cs.head? kind)
      (o : Nat) : ¬BeginsOn (saturated (1 + n)) kind (lexed o n (s.behind layout cs)) :=
    fun h => hruns ((beginsOn_behind_iff hwell.2 hcs hkind o).mp h)
  have hnamed {k : Keyword} {f : String → Instruction} {name : String}
      (hkeyword : ∀ w ls, Clause.keyword k w ls =
        .ok (f ((Clause.argument w ls).1.getD ""), (Clause.argument w ls).2))
      (hchars : (f name).chars layout = k.applied name.toList)
      (hname : name = "" ∨ IsWord name.toList)
      (hruns : name = "" → ¬s.RunsInto n cs.head? .colon ∧ ¬s.RunsInto n cs.head? .word) :
      (f name).ReadsBack layout n (s.behind layout cs) := by
    rcases hname with rfl | hname
    · obtain ⟨hcolon, hword⟩ := hruns rfl
      exact Instruction.readsBack_bare (f := fun word? => f (word?.getD "")) hkeyword hchars rfl
        hbreaks (hquiet (fun h => by cases h) hcolon) (hquiet (fun h => by cases h) hword)
    · refine Instruction.readsBack_applied (f := fun word? => f (word?.getD "")) hkeyword hchars
        hname ?_ hbreaks
      rw [Option.getD_some, String.ofList_toList]
  obtain ⟨hinstruction, hconditions⟩ := hwell
  rw [Reprintable] at hback
  cases hs : s.instruction with
  | say actor text =>
      rw [hs] at hinstruction
      exact Instruction.readsBack_say hinstruction
  | choice number text target =>
      rw [hs] at hinstruction hback
      exact Instruction.readsBack_choice hinstruction hback.1 hback.2 hbreaks
  | code text =>
      rw [hs] at hback
      exact hs ▸ readsBack_code hs ⟨hinstruction, hconditions⟩ hback cs
  | goto label =>
      rw [hs] at hinstruction
      exact Instruction.readsBack_goto hinstruction hbreaks
  | pause seconds =>
      rw [hs] at hback
      exact Instruction.readsBack_numeral (k := .pause) (fun _ _ => rfl) rfl
        (Binary32.isNumber_text hback) (Binary32.read?_text hback) hbreaks
  | parrot active =>
      refine Instruction.readsBack_applied (k := .parrot)
        (f := fun word? => .parrot (word?.all (· = "yes"))) (fun _ _ => rfl) rfl ?_ ?_ hbreaks
      · cases active <;> exact isWord_cons rfl rfl (by decide)
      · cases active <;> rfl
  | dialog name =>
      rw [hs] at hinstruction hback
      exact hnamed (k := .dialog) (fun _ _ => rfl) rfl hinstruction hback
  | override name =>
      rw [hs] at hinstruction hback
      exact hnamed (k := .override) (fun _ _ => rfl) rfl hinstruction hback
  | shutUp =>
      rw [hs] at hback
      exact Instruction.readsBack_shutUp hbreaks (hquiet (fun h => by cases h) hback)
  | allowObjects allow =>
      refine Instruction.readsBack_applied (k := .allowObjects)
        (f := fun word? => .allowObjects (word?.all (· = "YES"))) (fun _ _ => rfl) rfl ?_ ?_ hbreaks
      · cases allow <;> exact isWord_cons rfl rfl (by decide)
      · cases allow <;> rfl
  | waitWhile text =>
      rw [hs] at hback
      exact hs ▸ readsBack_waitWhile hs ⟨hinstruction, hconditions⟩ hback cs
  | waitFor name =>
      rw [hs] at hinstruction hback
      exact hnamed (k := .waitFor) (fun _ _ => rfl) rfl hinstruction hback
  | limit max =>
      exact Instruction.readsBack_numeral (k := .limit) (fun _ _ => rfl) rfl
        (Numeral.isNumber_ofInt32 max) (Numeral.int32?_ofInt32 max) hbreaks

end Statement

namespace Clause

variable {l : Lexeme} {ls : List Lexeme}

theorem read_of_ne_colon (hkind : l.kind ≠ .colon) : read true l ls = inner l ls := by
  unfold read
  rw [decide_eq_false hkind]

/-- A clause that begins with an instruction is a statement with the conditions behind it. -/
theorem read_of_instruction? {after : List Lexeme} (hkind : l.kind ≠ .colon)
    (hread : instruction? l ls = some (.ok (i, after))) :
    read true l ls = .ok (.statement ⟨i, (conditions after).1⟩, (conditions after).2) := by
  rw [read_of_ne_colon hkind, inner, hread]
  rfl

/-- A reprintable statement is read back, its conditions on the lines where they are printed. -/
theorem read_printed (layout : Layout) {s : Statement} {cs : List Clause} (hwell : s.WellFormed)
    (hcs : ∀ c ∈ cs, c.Printed) (hback : s.Reprintable n cs.head?) (o : Nat) :
    ∃ l rest start, lexed o n (printedChars layout (.statement s :: cs)) = l :: rest ∧
      read true l rest = .ok (.statement (s.relined (fun n => saturated (1 + n)) layout n),
        lexed start (n + (s.chars layout).count '\n' + 1) (printedChars layout cs)) := by
  obtain ⟨l, rest, start, hfirst, hkind, hread⟩ :=
    Statement.readsBack layout hwell hcs hback o
  obtain ⟨start', hconditions⟩ := conditions_lexed layout hcs hwell.2 start
    (n + (s.instruction.chars layout).count '\n')
  refine ⟨l, rest, start', ?_, ?_⟩
  · rw [printedChars_statement, hfirst]
  · rw [read_of_instruction? hkind hread, Statement.behind, hconditions, Statement.chars,
      List.count_append, Nat.add_assoc n]
    rfl

end Clause

end DialogScript
