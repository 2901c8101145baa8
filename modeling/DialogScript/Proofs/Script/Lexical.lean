import DialogScript.Proofs.Script.Conditions

/-!
# The lexical form of scripts

What a script holds are texts of tokens, whole or without their delimiters, so each part of a script
has the form that the rule of its token gives it: names are words, a text holds no quote, code stays
on its line and holds no bracket that opens a condition. That the text of a choice stays on its line
is no rule of its token; it follows because the arrow behind the text has to stand on the line of
the number, and a text of several lines ends on a later one.

Lines that have the largest number cannot be told apart. A text of several lines may stand there
before an arrow on a later line, so the texts of choices stay on their lines only as long as every
line of the source has a number of its own.

## Main definitions

* `OpensNoCondition`, `IsTextId`: the texts of code and of text identifiers
* `Instruction.Lexical`, `Condition.Lexical`, `Script.Lexical`: the parts of a script have the forms
  of their tokens
* `Script.ChoicesOnLine`: the texts of choices stay on their lines

## Main results

* `Clause.lexical_of_instruction?`: an instruction has the forms of its tokens
* `Script.lexical_of_read`: a script that is read has the forms of its tokens, and its choices stay
  on their lines
* `Script.read_choice_onLastLine`, `Script.not_choicesOnLine_of_read`: a text of two lines on the
  line with the largest number
-/

namespace DialogScript

/-! ### Texts -/

/-- A bracket behind a space in the text stands before a space or at the end. -/
def OpensNoCondition (cs : List Char) : Prop :=
  ∀ before c after, cs = before ++ ' ' :: '[' :: c :: after → c = ' '

/-- The text is a text identifier: a dollar sign and characters that do not end one. -/
def IsTextId (cs : List Char) : Prop :=
  cs.head? = some '$' ∧ ∀ c ∈ cs, c ≠ ' ' ∧ c ≠ '[' ∧ c ≠ '\n' ∧ c ≠ Piece.nul

theorem SpacedBrackets.opensNoCondition {spaced : Bool} {cs : List Char}
    (hcs : SpacedBrackets spaced cs) : OpensNoCondition cs := by
  rintro before c after rfl
  induction before generalizing spaced with
  | nil => exact Option.some.inj (hcs.2.1 rfl rfl)
  | cons b before ih => exact ih hcs.2

theorem OpensNoCondition.of_infix {cs ds : List Char} (hcs : OpensNoCondition cs)
    (hds : ds <:+: cs) : OpensNoCondition ds := by
  obtain ⟨front, back, rfl⟩ := hds
  rintro before c after rfl
  refine hcs (front ++ before) c (after ++ back) ?_
  simp only [List.append_assoc, List.cons_append]

theorem infix_trim (cs : List Char) : trim cs <:+: cs :=
  (prefix_trimEnd _).isInfix.trans (List.dropWhile_suffix _).isInfix

theorem stripped_sublist (opening closing : Char) (cs : List Char) :
    (stripped opening closing cs).Sublist cs := by
  have hinner : (if cs.head? = some opening then cs.tail else cs).Sublist cs := by
    split
    · exact List.tail_sublist cs
    · exact .refl cs
  rw [stripped]
  generalize (if cs.head? = some opening then cs.tail else cs) = inner at hinner ⊢
  split
  · exact (List.dropLast_sublist inner).trans hinner
  · exact hinner

/-- A number is read from a text as none only if the text has the letters to say so. -/
theorem Binary32.exists_letter_of_nan {cs : List Char} (hread : read? cs = some .nan) :
    ∃ c ∈ cs, c.toLower = 'n' := by
  unfold read? at hread
  split at hread
  rename_i negative magnitude hsign
  have hmagnitude : magnitude.Sublist cs := by
    split at hsign <;> obtain ⟨-, rfl⟩ := Prod.mk.inj hsign
    · exact List.sublist_cons_self _ _
    · exact List.sublist_cons_self _ _
    · exact .refl _
  dsimp only at hread
  split at hread
  · cases hread
  · split at hread
    · rename_i hword
      obtain ⟨c, hc, hlower⟩ := List.mem_map.mp (hword ▸ List.mem_cons_self :
        'n' ∈ magnitude.map Char.toLower)
      exact ⟨c, hmagnitude.subset hc, hlower⟩
    · obtain ⟨d, -, hd⟩ := Option.map_eq_some_iff.mp hread
      cases hd

/-! ### Texts of lexemes -/

variable {source : List Char} {l : Lexeme}

/-- The text of a lexeme follows the rule of its kind. -/
theorem Lexeme.exists_lexical (hl : l ∈ lexemes source) :
    ∃ rest, Piece.Lexical l.kind l.text rest := by
  obtain ⟨before, p, after, hall, rfl⟩ := exists_eq_of_mem_lexemesFrom hl
  have hp : p ∈ Piece.all source := hall ▸ by simp
  exact Piece.of_mem_all (P := fun p => ∃ rest, Piece.Lexical p.kind p.text rest)
    (fun cs p rest hscan => ⟨rest, (Piece.scan?_eq_some_iff.mp hscan).2⟩) hp

theorem Piece.Lexical.textId {text rest : List Char} (htext : Lexical .textId text rest) :
    IsTextId text := by
  cases htext with
  | formed htext =>
      cases htext with
      | textId hid =>
          refine ⟨rfl, List.forall_mem_cons.mpr ⟨by decide, fun c hc => ?_⟩⟩
          have := hid c hc
          simp only [isTextIdChar, Bool.not_eq_true', Bool.or_eq_false_iff,
            decide_eq_false_iff_not] at this
          tauto

theorem Piece.Lexical.opensNoCondition_code {text rest : List Char}
    (htext : Lexical .code text rest) : OpensNoCondition (text.drop 1) := by
  cases htext with
  | formed htext =>
      cases htext with
      | code hbody => exact hbody.brackets.opensNoCondition

theorem Piece.Lexical.opensNoCondition_waitWhile {text rest : List Char}
    (htext : Lexical .waitWhile text rest) :
    OpensNoCondition (text.drop waitWhileWord.length) := by
  cases htext with
  | formed htext =>
      cases htext with
      | waitWhile hbody =>
          rw [List.drop_left]
          exact hbody.brackets.opensNoCondition

theorem not_nan_of_number (hl : l ∈ lexemes source) (hkind : l.kind = .number) :
    Binary32.read? l.text ≠ some .nan := by
  intro hnan
  obtain ⟨c, hc, hlower⟩ := Binary32.exists_letter_of_nan hnan
  obtain ⟨rest, hrule⟩ := Lexeme.exists_lexical hl
  rw [hkind] at hrule
  cases hrule with
  | formed hrule =>
      rcases hrule.number_chars c hc with hdigit | rfl | rfl
      · rw [Binary32.toLower_of_isDigit hdigit] at hlower
        rw [hlower] at hdigit
        cases hdigit
      · cases hlower
      · cases hlower

/-! ### Forms -/

/-- The parts of an instruction have the forms that the rules of their lexemes give them. -/
def Instruction.Lexical : Instruction → Prop
  | say actor text => IsWord actor.toList ∧ '"' ∉ text.toList
  | choice _ text target =>
    IsWord target.toList ∧ ('"' ∉ text.toList ∨ IsTextId text.toList)
  | code text =>
    StaysOnLine text.toList ∧ OpensNoCondition text.toList ∧ trimEnd text.toList = text.toList
  | waitWhile text =>
    StaysOnLine text.toList ∧ OpensNoCondition text.toList ∧ trim text.toList = text.toList
  | goto label => IsWord label.toList
  | pause seconds => seconds ≠ .nan
  | dialog name | override name | waitFor name => name = "" ∨ IsWord name.toList
  | parrot _ | shutUp | allowObjects _ | limit _ => True

/-- The text of a condition has no closing bracket and is no scope, and the condition has a line. -/
def Condition.Lexical (c : Condition) : Prop :=
  1 ≤ c.line.toNat ∧ ∀ text, c.gate = .code text →
    ']' ∉ text.toList ∧ ∀ s : Scope, text ≠ s.word

/-- The parts of a script have the forms that the rules of their lexemes give them. -/
def Script.Lexical (u : Script) : Prop :=
  ∀ l ∈ u.labels, IsWord l.name.toList ∧ ∀ s ∈ l.statements,
    s.instruction.Lexical ∧ ∀ c ∈ s.conditions, c.Lexical

/-- The text of a choice stays on its line. -/
def Instruction.ChoiceOnLine : Instruction → Prop
  | choice _ text _ => '\n' ∉ text.toList
  | _ => True

/-- The texts of all choices stay on their lines. -/
def Script.ChoicesOnLine (u : Script) : Prop :=
  ∀ l ∈ u.labels, ∀ s ∈ l.statements, s.instruction.ChoiceOnLine

namespace Clause

variable {ls rest : List Lexeme} {i : Instruction}

theorem lexical_of_keyword {k : Keyword} (hi : i.WellFormed) (hls : ls <:+ significant source)
    (h : keyword k l ls = .ok (i, rest)) : i.Lexical ∧ i.ChoiceOnLine := by
  cases k with
  | pause =>
      obtain ⟨⟨seconds, behind⟩, hnumeral, h⟩ := ok_of_bind h
      obtain ⟨rfl, -⟩ := Prod.mk.inj (Except.ok.inj h)
      obtain ⟨⟨number, after⟩, hnumber, hvalue⟩ := ok_of_bind hnumeral
      obtain ⟨hnext, hkind⟩ := of_expect hnumber
      have hmem : number ∈ lexemes source :=
        List.mem_of_mem_filter (hls.subset (hnext ▸ List.mem_cons_self))
      dsimp only at hvalue
      split at hvalue
      · rename_i x hseconds
        obtain ⟨rfl, -⟩ := Prod.mk.inj (Except.ok.inj hvalue)
        refine ⟨?_, trivial⟩
        rintro rfl
        exact not_nan_of_number hmem hkind hseconds
      · cases hvalue
  | limit =>
      obtain ⟨⟨max, after⟩, -, h⟩ := ok_of_bind h
      obtain ⟨rfl, -⟩ := Prod.mk.inj (Except.ok.inj h)
      exact ⟨trivial, trivial⟩
  | shutUp | parrot | allowObjects =>
      obtain ⟨rfl, -⟩ := Prod.mk.inj (Except.ok.inj h)
      exact ⟨trivial, trivial⟩
  | waitFor | dialog | override =>
      obtain ⟨rfl, -⟩ := Prod.mk.inj (Except.ok.inj h)
      exact ⟨hi, trivial⟩

theorem lexical_of_command (hi : i.WellFormed) (hls : ls <:+ significant source)
    (h : word.command l ls = .ok (i, rest)) : i.Lexical ∧ i.ChoiceOnLine := by
  rw [word.command] at h
  split at h
  · exact lexical_of_keyword hi hls h
  · cases h

theorem lexical_of_word (hi : i.WellFormed) (hls : ls <:+ significant source)
    (h : word l ls = .ok (i, rest)) : i.Lexical ∧ i.ChoiceOnLine := by
  rw [word.eq_def] at h
  split at h
  · split at h
    · obtain ⟨⟨text, after⟩, -, h⟩ := ok_of_bind h
      obtain ⟨rfl, -⟩ := Prod.mk.inj (Except.ok.inj h)
      exact ⟨hi, trivial⟩
    · exact lexical_of_command hi hls h
  · exact lexical_of_command hi hls h

/-- The text of a choice is that of the next lexeme, on the line of the number. -/
theorem exists_of_choiceText {text : String} (h : choiceText l ls = .ok (text, rest)) :
    ∃ k, ls = k :: rest ∧ k.line = l.line ∧
      (k.kind = .string ∧ text = k.unquoted ∨ k.kind = .textId ∧ text = k.string) := by
  cases ls with
  | nil => cases h
  | cons k ks =>
      rw [choiceText] at h
      split at h
      · rename_i hstring
        obtain ⟨rfl, rfl⟩ := Prod.mk.inj (Except.ok.inj h)
        exact ⟨k, rfl, hstring.1, .inl ⟨hstring.2, rfl⟩⟩
      · split at h
        · rename_i htextId
          obtain ⟨rfl, rfl⟩ := Prod.mk.inj (Except.ok.inj h)
          exact ⟨k, rfl, htextId.1, .inr ⟨htextId.2, rfl⟩⟩
        · cases h

/-- An arrow stands on the line of its anchor. -/
theorem exists_of_target {name : String} (h : target l ls = .ok (name, rest)) :
    ∃ arrow behind, ls = arrow :: behind ∧ arrow.line = l.line := by
  obtain ⟨⟨arrow, behind⟩, harrow, -⟩ := ok_of_bind h
  cases ls with
  | nil => cases harrow
  | cons m ms =>
      rw [expect] at harrow
      split at harrow
      · rename_i hmatch
        exact ⟨m, ms, rfl, hmatch.2⟩
      · cases harrow

/-- A text before an arrow on its line goes over that line only where numbers no longer grow. -/
theorem le_feeds_of_feed {k arrow : Lexeme} (hls : k :: arrow :: rest <:+ significant source)
    (hline : arrow.line = k.line) (hfeed : '\n' ∈ k.text) : 4294967295 ≤ source.count '\n' := by
  have hbefore : k.Before arrow :=
    List.rel_of_pairwise_cons ((pairwise_before_significant source).sublist hls.sublist)
      List.mem_cons_self
  have hmax := hbefore.line_eq_max hline hfeed
  have hmem : k ∈ lexemes source := List.mem_of_mem_filter (hls.subset List.mem_cons_self)
  obtain ⟨before, after, hsource, -, hk⟩ := Lexeme.exists_eq_of_mem hmem
  have hcount := List.count_pos_iff.mpr hfeed
  rw [hk, toNat_saturated] at hmax
  rw [hsource, List.count_append, List.count_append]
  omega

theorem lexical_of_choice (hi : i.WellFormed) (hls : ls <:+ significant source)
    (h : choice l ls = .ok (i, rest)) :
    i.Lexical ∧ (source.count '\n' < 4294967295 → i.ChoiceOnLine) := by
  rw [choice] at h
  split at h
  · cases h
  · obtain ⟨⟨text, afterText⟩, htext, h⟩ := ok_of_bind h
    obtain ⟨⟨name, after⟩, hname, h⟩ := ok_of_bind h
    obtain ⟨rfl, -⟩ := Prod.mk.inj (Except.ok.inj h)
    obtain ⟨k, hk, hline, hkinds⟩ := exists_of_choiceText htext
    obtain ⟨arrow, behind, rfl, harrow⟩ := exists_of_target hname
    have hsuffix : k :: arrow :: behind <:+ significant source :=
      hk ▸ (suffix_passColon l ls).trans hls
    have hmem : k ∈ significant source := hsuffix.subset List.mem_cons_self
    obtain ⟨rest, hrule⟩ := Lexeme.exists_lexical (List.mem_of_mem_filter hmem)
    refine ⟨⟨hi, ?_⟩, fun hlines hfeed => ?_⟩
    · rcases hkinds with ⟨hkind, rfl⟩ | ⟨hkind, rfl⟩
      · exact .inl (not_mem_unquoted (Lexeme.wellShaped_of_mem_significant hmem) hkind)
      · rw [hkind] at hrule
        rw [Lexeme.string, String.toList_ofList]
        exact .inr hrule.textId
    · have hmeant : '\n' ∈ k.text := by
        rcases hkinds with ⟨-, rfl⟩ | ⟨-, rfl⟩
        · rw [Lexeme.unquoted, String.toList_ofList] at hfeed
          exact (stripped_sublist _ _ _).subset hfeed
        · rwa [Lexeme.string, String.toList_ofList] at hfeed
      have hmax := le_feeds_of_feed hsuffix (harrow.trans hline.symm) hmeant
      exact absurd hlines (Nat.not_lt.mpr hmax)

/-- An instruction of a source has the form that the rules of its lexemes give it, and a choice
stays on its line if every line has a number of its own. -/
theorem lexical_of_instruction? (hi : i.WellFormed) (hls : l :: ls <:+ significant source)
    (h : instruction? l ls = some (.ok (i, rest))) :
    i.Lexical ∧ (source.count '\n' < 4294967295 → i.ChoiceOnLine) := by
  have hmem : l ∈ lexemes source := List.mem_of_mem_filter (hls.subset List.mem_cons_self)
  have hbehind : ls <:+ significant source := (List.suffix_cons l ls).trans hls
  obtain ⟨after, hrule⟩ := Lexeme.exists_lexical hmem
  rw [instruction?] at h
  split at h <;> rename_i hkind
  · exact (lexical_of_word hi hbehind (Option.some.inj h)).imp_right fun honLine _ => honLine
  · exact lexical_of_choice hi hbehind (Option.some.inj h)
  · obtain ⟨⟨name, after⟩, -, h⟩ := ok_of_bind (Option.some.inj h)
    obtain ⟨rfl, -⟩ := Prod.mk.inj (Except.ok.inj h)
    exact ⟨hi, fun _ => trivial⟩
  · obtain ⟨rfl, -⟩ := Prod.mk.inj (Except.ok.inj (Option.some.inj h))
    rw [hkind] at hrule
    refine ⟨⟨hi.1, ?_, hi.2⟩, fun _ => trivial⟩
    rw [String.toList_ofList]
    exact hrule.opensNoCondition_code.of_infix (prefix_trimEnd _).isInfix
  · obtain ⟨rfl, -⟩ := Prod.mk.inj (Except.ok.inj (Option.some.inj h))
    rw [hkind] at hrule
    refine ⟨⟨hi.1, ?_, hi.2⟩, fun _ => trivial⟩
    rw [String.toList_ofList]
    exact hrule.opensNoCondition_waitWhile.of_infix (infix_trim _)
  · cases h

end Clause

/-! ### Scripts -/

theorem mem_of_mem_gather {cs : List Clause} {l : Label} (hl : l ∈ (gather cs).2) {s : Statement}
    (hs : s ∈ l.statements) : .statement s ∈ cs := by
  have hmem : s ∈ (gather cs).2.flatMap fun l => l.statements.flatMap fun s => [s] :=
    List.mem_flatMap.mpr ⟨l, hl, List.mem_flatMap.mpr ⟨s, hs, List.mem_singleton_self s⟩⟩
  have hgather := List.mem_append_right ((gather cs).1.flatMap fun s => [s]) hmem
  rw [flatMap_gather] at hgather
  obtain ⟨c, hc, hs⟩ := List.mem_flatMap.mp hgather
  cases c with
  | statement t => exact List.mem_singleton.mp hs ▸ hc
  | label | skipped | stray => exact absurd hs List.not_mem_nil

/-- Each statement of a script was read from a lexeme of its source and those behind it. -/
theorem Script.exists_instruction? {source : String} {u : Script}
    (hread : Script.read source = .ok u) {l : Label} (hl : l ∈ u.labels) {s : Statement}
    (hs : s ∈ l.statements) : ∃ first behind after,
      first :: behind <:+ significant source.toList ∧
        Clause.instruction? first behind = some (.ok (s.instruction, after)) := by
  rw [Script.read, readChars] at hread
  split at hread
  · rename_i clauses hclauses
    obtain rfl := Except.ok.inj hread
    exact (Clause.tookAll_of_all hclauses).exists_instruction? (mem_of_mem_gather hl hs)
  · cases hread

theorem Condition.WellFormed.ne_word {c : Condition} (hc : c.WellFormed) {text : String}
    (hgate : c.gate = .code text) (s : Scope) : text ≠ s.word := by
  rintro rfl
  have htext := hc.2
  rw [hgate] at htext
  cases s <;> cases htext

/-- Every script that is read has the lexical form of its source: names are words, texts hold no
quote, code is trimmed, stays on its line and opens no condition, lengths of time are numbers, and
conditions have texts and lines of their own. The texts of choices stay on their lines if the source
has fewer line feeds than there are numbers of lines. -/
theorem Script.lexical_of_read {source : String} {u : Script}
    (hread : Script.read source = .ok u) :
    u.Lexical ∧ (source.toList.count '\n' < 4294967295 → u.ChoicesOnLine) := by
  have hwell := Script.wellFormed_of_read hread
  have hinstruction {l : Label} (hl : l ∈ u.labels) {s : Statement} (hs : s ∈ l.statements) :
      s.instruction.Lexical ∧
        (source.toList.count '\n' < 4294967295 → s.instruction.ChoiceOnLine) := by
    obtain ⟨first, behind, after, hsuffix, hfirst⟩ := exists_instruction? hread hl hs
    exact Clause.lexical_of_instruction? ((hwell l hl).2 s hs).1 hsuffix hfirst
  refine ⟨fun l hl => ?_, fun hlines l hl s hs => (hinstruction hl hs).2 hlines⟩
  refine ⟨(hwell l hl).1, fun s hs => ⟨(hinstruction hl hs).1, fun c hc => ⟨?_, ?_⟩⟩⟩
  · obtain ⟨taken, htaken, -, hconditions⟩ := exists_conditions_eq hread
    have hmem : c ∈ u.conditions :=
      List.mem_flatMap.mpr ⟨l, hl, List.mem_flatMap.mpr ⟨s, hs, hc⟩⟩
    obtain ⟨k, hk, rfl⟩ := List.mem_map.mp (hconditions ▸ hmem)
    exact (line_of_mem_significant (htaken.subset hk)).1
  · intro text hgate
    have hform := ((hwell l hl).2 s hs).2 c hc
    refine ⟨?_, hform.ne_word hgate⟩
    have htext := hform.1
    rwa [hgate] at htext

/-- A quote in a text identifier, a bracket of code before a space, and a keyword alone. -/
theorem Script.lexical_of_text_id :
    let source := ":a\nb: \"x\" [f]\n1 $y\"z -> a\n!c [ d [once]\npause 0.5\nwaitfor\n"
    let u : Script := ⟨[⟨"a", [⟨.say "b" "x", [⟨.code "f", 2⟩]⟩, ⟨.choice 1 "$y\"z" "a", []⟩,
      ⟨.code "c [ d", [⟨.scope .once, 4⟩]⟩, ⟨.pause (.ofRank false 1056964608), []⟩,
      ⟨.waitFor "", []⟩]⟩]⟩
    Script.read source = .ok u ∧ source.toList.count '\n' < 4294967295 ∧
      u.Lexical ∧ u.ChoicesOnLine := by
  intro source u
  have hread : Script.read source = .ok u := by decide +kernel
  have hlines : source.toList.count '\n' < 4294967295 := by decide +kernel
  obtain ⟨hlexical, honLine⟩ := Script.lexical_of_read hread
  exact ⟨hread, hlines, hlexical, honLine hlines⟩

/-- On the line with the largest number the text of a choice may go over its line. -/
theorem Script.read_choice_onLastLine {n : Nat} (hn : 4294967294 ≤ n) :
    readChars (List.replicate n '\n' ++ ":a 1 \"x\ny\" -> b".toList) =
      .ok ⟨[⟨"a", [⟨.choice 1 "x\ny" "b", []⟩]⟩]⟩ := by
  have hs : significant ":a 1 \"x\ny\" -> b".toList =
      [⟨.colon, [':'], 0, 1⟩, ⟨.word, ['a'], 1, 1⟩, ⟨.number, ['1'], 3, 1⟩,
        ⟨.string, "\"x\ny\"".toList, 5, 1⟩, ⟨.arrow, ['-', '>'], 11, 2⟩,
        ⟨.word, ['b'], 14, 2⟩] := by decide +kernel
  rw [readChars, significant_onLastLine hn, hs]
  rfl

/-- A source with one line feed for each number of a line has a choice whose text goes over its
line. -/
theorem Script.not_choicesOnLine_of_read :
    let source := String.ofList (List.replicate 4294967294 '\n' ++ ":a 1 \"x\ny\" -> b".toList)
    let u : Script := ⟨[⟨"a", [⟨.choice 1 "x\ny" "b", []⟩]⟩]⟩
    source.toList.count '\n' = 4294967295 ∧ Script.read source = .ok u ∧ ¬u.ChoicesOnLine := by
  intro source u
  refine ⟨?_, ?_, fun honLine => ?_⟩
  · rw [String.toList_ofList, List.count_append, List.count_replicate_self]
    rfl
  · rw [read_ofList]
    exact read_choice_onLastLine (Nat.le_refl _)
  · exact honLine _ List.mem_cons_self _ List.mem_cons_self (by decide)

end DialogScript
