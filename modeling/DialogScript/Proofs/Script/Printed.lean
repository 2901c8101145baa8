import DialogScript.Proofs.Script.Reprintable
import DialogScript.Proofs.Script.WellFormed
import DialogScript.Proofs.Text.Line
import DialogScript.Proofs.Token.Lexing

/-!
# The lexemes of a printed script

What a clause begins with in print, and what stands behind its instruction: the conditions, and the
clauses after it. A lexeme behind an instruction stands on the line of the instruction if it belongs
to a condition, or if the line numbers have stopped growing.

## Main definitions

* `Clause.Printed`: the clauses of a script that was read
* `BeginsOn`: the next lexeme is one of a kind on a line
* `Statement.behind`: the text behind an instruction

## Main results

* `Clause.lexed_first`: the first lexeme of a clause
* `Statement.beginsOn_behind_iff`: the first lexeme behind an instruction
* `Clause.conditions_lexed`: conditions are read back, on the lines where they are printed
-/

namespace DialogScript

/-- The clause is printed, and its parts have the form that reading gives them. -/
def Clause.Printed : Clause → Prop
  | label name => IsWord name.toList
  | statement s => s.WellFormed
  | _ => False

/-- The text begins with a space or a line feed. -/
def Breaks (cs : List Char) : Prop := ∃ rest, cs = ' ' :: rest ∨ cs = '\n' :: rest

theorem breaks_space (rest : List Char) : Breaks (' ' :: rest) := ⟨rest, .inl rfl⟩

theorem Breaks.stops {cs : List Char} (hcs : Breaks cs) {p : Char → Bool} (hspace : p ' ' = false)
    (hfeed : p '\n' = false) : Stops p cs := by
  obtain ⟨rest, rfl | rfl⟩ := hcs
  · exact stops_cons hspace rest
  · exact stops_cons hfeed rest

theorem IsWord.stops_gap {w : List Char} (hw : IsWord w) (rest : List Char) :
    Stops Piece.isGap (w ++ rest) := by
  obtain ⟨⟨c, tail, rfl, hc, -⟩, -⟩ := hw
  have hne {d : Char} (hd : d.isAlpha = false) := Piece.ne_of_isAlpha hc hd
  refine stops_cons ?_ _
  simp [Piece.isGap, hne (d := ' ') rfl, hne (d := '\t') rfl, hne (d := '\r') rfl]

theorem IsNumber.stops_gap {t : List Char} (ht : IsNumber t) (rest : List Char) :
    Stops Piece.isGap (t ++ rest) := by
  obtain ⟨negative, whole, fraction, hne, hwhole, -, rfl⟩ := ht
  cases negative with
  | true => exact stops_cons rfl _
  | false =>
      obtain ⟨c, cs, rfl⟩ := List.exists_cons_of_ne_nil hne
      have hc : c.isDigit = true := hwhole c List.mem_cons_self
      have hne {d : Char} (hd : d.isDigit = false) := Piece.ne_of_isDigit hc hd
      have hgap : Piece.isGap c = false := by
        simp [Piece.isGap, hne (d := ' ') rfl, hne (d := '\t') rfl, hne (d := '\r') rfl]
      rw [if_neg Bool.false_ne_true, Decimal.withPoint]
      split <;> exact stops_cons hgap _

theorem IsNumber.ne_nil {t : List Char} (ht : IsNumber t) : t ≠ [] := by
  obtain ⟨negative, whole, fraction, hne, -, -, rfl⟩ := ht
  obtain ⟨c, cs, rfl⟩ := List.exists_cons_of_ne_nil hne
  cases negative with
  | true => exact List.cons_ne_nil _ _
  | false =>
      rw [if_neg Bool.false_ne_true, Decimal.withPoint]
      split <;> exact List.cons_ne_nil _ _

theorem IsWord.ne_nil {w : List Char} (hw : IsWord w) : w ≠ [] := by
  obtain ⟨⟨c, tail, rfl, -⟩, -⟩ := hw
  exact List.cons_ne_nil c tail

theorem Keyword.isWord_word (k : Keyword) : IsWord k.word := by
  cases k <;> exact isWord_cons rfl rfl (by decide)

/-! ### Lines -/

/-- Lines are told apart until their number is the largest one. -/
theorem saturated_eq_iff {n m : Nat} (hnm : n < m) :
    saturated (1 + m) = saturated (1 + n) ↔ LinesFull n := by
  rw [← UInt32.toNat_inj, toNat_saturated, toNat_saturated, LinesFull]
  omega

theorem saturated_add_of_linesFull {n : Nat} (hfull : LinesFull n) (k : Nat) :
    saturated (1 + (n + k)) = saturated (1 + n) := by
  cases k with
  | zero => rfl
  | succ k => exact (saturated_eq_iff (by omega)).mpr hfull

/-! ### The first lexeme of a clause -/

/-- The first lexeme is one of the given kind on the given line. -/
def BeginsOn (line : UInt32) (kind : TokenKind) (ls : List Lexeme) : Prop :=
  ∃ l rest, ls = l :: rest ∧ l.kind = kind ∧ l.line = line

theorem beginsOn_cons {line : UInt32} {kind : TokenKind} {l : Lexeme} {ls : List Lexeme} :
    BeginsOn line kind (l :: ls) ↔ l.kind = kind ∧ l.line = line := by
  constructor
  · rintro ⟨m, rest, hm, h⟩
    obtain ⟨rfl, rfl⟩ := List.cons.inj hm
    exact h
  · exact fun h => ⟨l, ls, rfl, h⟩

theorem not_beginsOn_cons {line : UInt32} {kind : TokenKind} {l : Lexeme} {ls : List Lexeme}
    (hkind : l.kind ≠ kind) : ¬BeginsOn line kind (l :: ls) := fun h => hkind (beginsOn_cons.mp h).1

variable {layout : Layout} {n : Nat} {cs : List Char} {i : Instruction} {k : Keyword}

theorem Keyword.applied_of_ne_nil {argument : List Char} (hargument : argument ≠ []) :
    k.applied argument = k.word ++ ' ' :: argument := if_neg hargument

theorem Keyword.count_feed_applied {argument : List Char} (hargument : argument.count '\n' = 0) :
    (k.applied argument).count '\n' = 0 := by
  rw [applied]
  split
  · exact k.isWord_word.count_feed
  · rw [List.count_append, k.isWord_word.count_feed, List.count_cons_of_ne (by decide), hargument]

/-- What stands behind a keyword in print. -/
theorem Keyword.applied_append (k : Keyword) (argument : List Char) (hcs : Breaks cs) :
    ∃ tail, k.applied argument ++ cs = k.word ++ tail ∧ Breaks tail := by
  by_cases hargument : argument = []
  · exact ⟨cs, by rw [applied, if_pos hargument], hcs⟩
  · refine ⟨' ' :: (argument ++ cs), ?_, breaks_space _⟩
    rw [applied_of_ne_nil hargument, List.append_assoc, List.cons_append]

/-- An instruction begins with a lexeme of its own kind. -/
theorem Instruction.lexed_first (hi : i.WellFormed) (hcs : Breaks cs) (o : Nat) :
    ∃ text rest,
      lexed o n (i.chars layout ++ cs) = ⟨i.firstKind, text, o, saturated (1 + n)⟩ :: rest ∧
        (i.firstKind = .word → IsWord text) := by
  have hkeyword (k : Keyword) (argument : List Char) : ∃ text rest,
      lexed o n (k.applied argument ++ cs) = ⟨.word, text, o, saturated (1 + n)⟩ :: rest ∧
        (TokenKind.word = .word → IsWord text) := by
    obtain ⟨tail, htail, hbreaks⟩ := k.applied_append argument hcs
    rw [htail, lexed_word k.isWord_word (hbreaks.stops rfl rfl)]
    exact ⟨_, _, rfl, fun _ => k.isWord_word⟩
  cases i with
  | say actor text =>
      rw [chars, List.append_assoc, List.cons_append, lexed_word hi.1 (stops_cons rfl _)]
      exact ⟨_, _, rfl, fun _ => hi.1⟩
  | choice number text target =>
      have hstops (more : List Char) : Stops (fun c => c.isDigit || c = '.')
          ((if layout.choiceColon = true then [':'] else []) ++ ' ' :: more) := by
        split <;> exact stops_cons rfl _
      rw [chars, List.append_assoc, List.append_assoc, List.cons_append,
        lexed_number (Numeral.isNumber_ofInt32 number) (hstops _)]
      exact ⟨_, _, rfl, fun h => by cases h⟩
  | code text =>
      rw [chars, List.cons_append, lexed_code]
      exact ⟨_, _, rfl, fun h => by cases h⟩
  | goto label =>
      rw [chars, List.cons_append, List.cons_append, lexed_arrow]
      exact ⟨_, _, rfl, fun h => by cases h⟩
  | waitWhile text =>
      rw [chars, List.append_assoc, List.cons_append, lexed_waitWhile (stops_cons rfl _)]
      exact ⟨_, _, rfl, fun h => by cases h⟩
  | shutUp => exact hkeyword .shutUp []
  | pause | parrot | dialog | override | allowObjects | waitFor | limit => exact hkeyword _ _

/-- What stands behind the instruction of the statement in print: its conditions and the clauses
after it. -/
def Statement.behind (layout : Layout) (s : Statement) (cs : List Clause) : List Char :=
  (s.conditions.flatMap fun c => ' ' :: c.chars) ++ '\n' :: printedChars layout cs

theorem printedChars_statement (layout : Layout) (s : Statement) (cs : List Clause) :
    printedChars layout (.statement s :: cs) =
      s.instruction.chars layout ++ s.behind layout cs := by
  rw [printedChars, Statement.chars, List.append_assoc, Statement.behind]

theorem Statement.behind_breaks (s : Statement) (layout : Layout) (cs : List Clause) :
    Breaks (s.behind layout cs) := by
  rw [behind]
  cases s.conditions with
  | nil => exact ⟨_, .inr rfl⟩
  | cons c conditions => exact ⟨_, .inl rfl⟩

/-- A clause begins with a lexeme of its own kind. -/
theorem Clause.lexed_first (layout : Layout) {c : Clause} (hc : c.Printed) (cs : List Clause)
    (o : Nat) :
    ∃ m text start rest, n ≤ m ∧
      lexed o n (printedChars layout (c :: cs)) =
        ⟨c.firstKind, text, start, saturated (1 + m)⟩ :: rest ∧
      (c.firstKind = .word → IsWord text) := by
  cases c with
  | label name =>
      rw [printedChars]
      split
      · rw [List.cons_append, List.nil_append, lexed_feed, lexed_colon]
        exact ⟨n + 1, _, _, _, Nat.le_succ n, rfl, fun h => by cases h⟩
      · rw [List.nil_append, lexed_colon]
        exact ⟨n, _, _, _, Nat.le_refl n, rfl, fun h => by cases h⟩
  | statement s =>
      rw [printedChars_statement]
      obtain ⟨text, rest, hfirst, hword⟩ :=
        Instruction.lexed_first hc.1 (s.behind_breaks layout cs) o
      exact ⟨n, text, o, rest, Nat.le_refl n, hfirst, hword⟩
  | skipped | stray => exact hc.elim

theorem Clause.firstKind_ne_condition {c : Clause} (hc : c.Printed) : c.firstKind ≠ .condition := by
  cases c with
  | label name => exact fun h => by cases h
  | statement s =>
      intro h
      rw [firstKind] at h
      cases hs : s.instruction <;> rw [hs] at h <;> cases h
  | skipped | stray => exact hc.elim

/-! ### Behind an instruction -/

theorem Statement.behind_nil {s : Statement} (hs : s.conditions = []) (cs : List Clause) :
    s.behind layout cs = '\n' :: printedChars layout cs := by
  rw [behind, hs, List.flatMap_nil, List.nil_append]

theorem Statement.behind_cons (layout : Layout) {s : Statement} {c : Condition}
    {conditions : List Condition} (hs : s.conditions = c :: conditions) (cs : List Clause) :
    ∃ rest, s.behind layout cs = ' ' :: '[' :: (c.gate.text.toList ++ ']' :: rest) := by
  rw [behind, hs, List.flatMap_cons]
  exact ⟨(conditions.flatMap fun c => ' ' :: c.chars) ++ '\n' :: printedChars layout cs,
    by simp [Condition.chars]⟩

/-- The lexeme behind an instruction stands on the line of the instruction only if it belongs to a
condition, or if the lines are full. -/
theorem Statement.beginsOn_behind_iff {s : Statement} {cs : List Clause} {kind : TokenKind}
    (hs : ∀ c ∈ s.conditions, c.WellFormed) (hcs : ∀ c ∈ cs, c.Printed) (hkind : kind ≠ .condition)
    (o : Nat) : BeginsOn (saturated (1 + n)) kind (lexed o n (s.behind layout cs)) ↔
      s.RunsInto n cs.head? kind := by
  cases hconditions : s.conditions with
  | nil =>
      rw [behind_nil hconditions, lexed_feed]
      cases cs with
      | nil =>
          constructor
          · rintro ⟨l, rest, hl, -⟩
            rw [printedChars, lexed_nil] at hl
            cases hl
          · rintro ⟨-, -, hnext⟩
            cases hnext
      | cons c cs =>
          obtain ⟨m, text, start, rest, hm, hfirst, -⟩ :=
            Clause.lexed_first layout (n := n + 1) (hcs c List.mem_cons_self) cs
              (o + utf8Length ['\n'])
          rw [hfirst, beginsOn_cons, saturated_eq_iff (show n < m by omega)]
          constructor
          · rintro ⟨hc, hfull⟩
            exact ⟨hconditions, hfull, congrArg some hc⟩
          · rintro ⟨-, hfull, hnext⟩
            exact ⟨Option.some.inj hnext, hfull⟩
  | cons c conditions =>
      obtain ⟨rest, hbehind⟩ := behind_cons layout hconditions cs
      have hc : c.WellFormed := hs c (by rw [hconditions]; exact List.mem_cons_self)
      rw [hbehind, lexed_space (stops_cons rfl _), lexed_condition hc.1, beginsOn_cons]
      constructor
      · rintro ⟨hcondition, -⟩
        exact absurd hcondition.symm hkind
      · rintro ⟨hnil, -⟩
        rw [hconditions] at hnil
        cases hnil

theorem Condition.ofLexeme_chars {c : Condition} (hc : c.WellFormed) (o : Nat) (line : UInt32) :
    Condition.ofLexeme ⟨.condition, '[' :: (c.gate.text.toList ++ [']']), o, line⟩ =
      ⟨c.gate, line⟩ := by
  rw [ofLexeme, stripped_between, String.ofList_toList, hc.2]

/-- Conditions are read back, on the lines where they are printed. -/
theorem Clause.conditions_lexed (layout : Layout) {cs : List Clause} (hcs : ∀ c ∈ cs, c.Printed)
    {ks : List Condition} (hks : ∀ k ∈ ks, k.WellFormed) (o n : Nat) :
    ∃ start, conditions (lexed o n
        ((ks.flatMap fun c => ' ' :: c.chars) ++ '\n' :: printedChars layout cs)) =
      (Condition.relined (fun n => saturated (1 + n)) n ks,
        lexed start (n + (ks.flatMap fun c => ' ' :: c.chars).count '\n' + 1)
          (printedChars layout cs)) := by
  induction ks generalizing o n with
  | nil =>
      have hfirst : ∀ l ∈ (lexed (o + utf8Length ['\n']) (n + 1) (printedChars layout cs)).head?,
          l.kind ≠ .condition := by
        cases cs with
        | nil => simp [printedChars, lexed_nil]
        | cons c cs =>
            have hc := hcs c List.mem_cons_self
            obtain ⟨m, text, start, rest, -, hfirst, -⟩ :=
              Clause.lexed_first layout (n := n + 1) hc cs (o + utf8Length ['\n'])
            rw [hfirst]
            rintro l hl
            obtain rfl := Option.some.inj hl
            exact firstKind_ne_condition hc
      refine ⟨o + utf8Length ['\n'], ?_⟩
      rw [List.flatMap_nil, List.nil_append, lexed_feed, List.count_nil, Nat.add_zero, conditions]
      cases hls : lexed (o + utf8Length ['\n']) (n + 1) (printedChars layout cs) with
      | nil => rfl
      | cons l ls =>
          have hl := hfirst l (by rw [hls]; rfl)
          rw [List.takeWhile_cons_of_neg (by simpa using hl),
            List.dropWhile_cons_of_neg (by simpa using hl), List.map_nil, Condition.relined]
  | cons k ks ih =>
      obtain ⟨hk, hks⟩ := List.forall_mem_cons.mp hks
      have hbody : ((k :: ks).flatMap fun c => ' ' :: c.chars) ++ '\n' :: printedChars layout cs =
          ' ' :: '[' :: (k.gate.text.toList ++ ']' ::
            ((ks.flatMap fun c => ' ' :: c.chars) ++ '\n' :: printedChars layout cs)) := by
        simp [Condition.chars]
      have hfeeds : k.chars.count '\n' = k.gate.text.toList.count '\n' :=
        count_feed_delimited (by decide) (by decide) _
      have hcount : ((k :: ks).flatMap fun c => ' ' :: c.chars).count '\n' =
          k.gate.text.toList.count '\n' + (ks.flatMap fun c => ' ' :: c.chars).count '\n' := by
        rw [List.flatMap_cons, List.count_append, List.count_cons_of_ne (by decide), hfeeds]
      rw [hbody, lexed_space (stops_cons rfl _), lexed_condition hk.1, hcount, ← Nat.add_assoc]
      obtain ⟨start, hrest⟩ := ih hks _ (n + k.gate.text.toList.count '\n')
      obtain ⟨htake, hdrop⟩ := Prod.mk.inj hrest
      refine ⟨start, ?_⟩
      rw [conditions, List.takeWhile_cons_of_pos rfl, List.dropWhile_cons_of_pos rfl,
        List.map_cons, Condition.ofLexeme_chars hk, Condition.relined, hfeeds]
      exact congrArg₂ Prod.mk (congrArg _ htake) hdrop

end DialogScript
