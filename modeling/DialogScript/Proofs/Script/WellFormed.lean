import DialogScript.Proofs.Text.Blank
import DialogScript.Proofs.Token.Shape
import DialogScript.Script.Reading

/-!
# Scripts that are read from sources

What is read from a source has the form of its lexemes: names are words, texts hold no quotes, the
code of a statement is trimmed and stays on its line, and the text of a condition tells its gate.

## Main definitions

* `Instruction.WellFormed`, `Condition.WellFormed`, `Clause.WellFormed`, `Script.WellFormed`

## Main results

* `Clause.wellFormed_of_read`: a clause that is read is well-formed
* `Script.wellFormed_of_read`: so is a script
-/

namespace DialogScript

/-! ### Forms -/

/-- The text of the condition holds no closing bracket and tells the gate. -/
def Condition.WellFormed (c : Condition) : Prop :=
  ']' ∉ c.gate.text.toList ∧ Gate.ofText c.gate.text = c.gate

/-- The parts of the instruction have the form that reading gives them. -/
def Instruction.WellFormed : Instruction → Prop
  | say actor text => IsWord actor.toList ∧ '"' ∉ text.toList
  | choice _ _ target => IsWord target.toList
  | code text => StaysOnLine text.toList ∧ trimEnd text.toList = text.toList
  | goto label => IsWord label.toList
  | dialog name | override name | waitFor name => name = "" ∨ IsWord name.toList
  | waitWhile text => StaysOnLine text.toList ∧ trim text.toList = text.toList
  | _ => True

/-- The instruction and the conditions of the statement are well-formed. -/
def Statement.WellFormed (s : Statement) : Prop :=
  s.instruction.WellFormed ∧ ∀ c ∈ s.conditions, c.WellFormed

/-- The label has a name, and its statements are well-formed. -/
def Label.WellFormed (l : Label) : Prop :=
  IsWord l.name.toList ∧ ∀ s ∈ l.statements, s.WellFormed

/-- The labels of the script are well-formed. -/
def Script.WellFormed (u : Script) : Prop := ∀ l ∈ u.labels, l.WellFormed

/-- What the clause adds to a script is well-formed. -/
def Clause.WellFormed : Clause → Prop
  | label name => IsWord name.toList
  | statement s => s.WellFormed
  | _ => True

/-- The text of the lexeme goes with its kind. -/
def Lexeme.WellShaped (l : Lexeme) : Prop := Piece.WellShaped ⟨l.kind, l.text⟩

theorem Lexeme.wellShaped_of_mem_significant {source : List Char} {l : Lexeme}
    (hl : l ∈ significant source) : l.WellShaped := by
  have hfrom (ps : List Piece) (start feeds : Nat) (hl : l ∈ lexemesFrom start feeds ps) :
      ⟨l.kind, l.text⟩ ∈ ps := by
    induction ps generalizing start feeds with
    | nil => cases hl
    | cons p ps ih =>
        rcases List.mem_cons.mp hl with rfl | hl
        · exact List.mem_cons_self
        · exact List.mem_cons_of_mem p (ih _ _ hl)
  exact Piece.wellShaped_of_mem_all (hfrom _ _ _ (List.mem_of_mem_filter hl))

/-! ### Texts of lexemes -/

theorem stripped_between (opening closing : Char) (cs : List Char) :
    stripped opening closing (opening :: (cs ++ [closing])) = cs := by
  rw [stripped, List.head?_cons, if_pos rfl, List.tail_cons, List.getLast?_concat, if_pos rfl,
    List.dropLast_concat]

theorem stripped_of_delimited {opening closing : Char} {cs : List Char}
    (hcs : Delimited opening closing cs) : closing ∉ stripped opening closing cs := by
  obtain ⟨body, hbody, rfl | rfl⟩ := hcs
  · rw [stripped, List.head?_cons, if_pos rfl, List.tail_cons]
    rw [if_neg]
    · exact hbody
    · exact fun hlast => hbody (List.mem_of_getLast? hlast)
  · rw [stripped_between]
    exact hbody

theorem Gate.text_ofText (t : String) : (Gate.ofText t).text = t := by
  rw [ofText]
  repeat' split
  all_goals simp_all [text, Scope.word]

namespace Clause

variable {l : Lexeme} {ls rest : List Lexeme}

theorem condition_wellFormed (hl : l.WellShaped) (hkind : l.kind = .condition) :
    (Condition.ofLexeme l).WellFormed := by
  rw [Lexeme.WellShaped, hkind] at hl
  have hstripped := stripped_of_delimited hl
  refine ⟨?_, ?_⟩
  · rw [Condition.ofLexeme, Gate.text_ofText, String.toList_ofList]
    exact hstripped
  · rw [Condition.ofLexeme, Gate.text_ofText]

theorem isWord_string (hl : l.WellShaped) (hkind : l.kind = .word) : IsWord l.string.toList := by
  rw [Lexeme.WellShaped, hkind] at hl
  rw [Lexeme.string, String.toList_ofList]
  exact hl

theorem not_mem_unquoted (hl : l.WellShaped) (hkind : l.kind = .string) :
    '"' ∉ l.unquoted.toList := by
  rw [Lexeme.WellShaped, hkind] at hl
  rw [Lexeme.unquoted, String.toList_ofList]
  exact stripped_of_delimited hl

/-! ### Reading -/

/-- All lexemes have texts that go with their kinds. -/
def AllShaped (ls : List Lexeme) : Prop := ∀ l ∈ ls, l.WellShaped

theorem of_expect {kind : TokenKind} {e : Expectation} {anchor : Lexeme}
    (h : expect kind e anchor ls = .ok (l, rest)) : ls = l :: rest ∧ l.kind = kind := by
  cases ls with
  | nil => simp [expect] at h
  | cons m ms =>
      rw [expect] at h
      split at h
      · rename_i hmatch
        obtain ⟨rfl, rfl⟩ := Prod.mk.inj (Except.ok.inj h)
        exact ⟨rfl, hmatch.1⟩
      · cases h

theorem of_target {anchor : Lexeme} {name : String} (hls : AllShaped ls)
    (h : target anchor ls = .ok (name, rest)) : IsWord name.toList ∧ AllShaped rest := by
  obtain ⟨⟨arrow, afterArrow⟩, harrow, hrest⟩ := ok_of_bind h
  obtain ⟨⟨word, afterWord⟩, hword, hname⟩ := ok_of_bind hrest
  obtain ⟨rfl, rfl⟩ := Prod.mk.inj (Except.ok.inj hname)
  obtain ⟨rfl, -⟩ := of_expect harrow
  obtain ⟨rfl, hkind⟩ := of_expect hword
  have hafter : AllShaped (word :: afterWord) := fun m hm => hls m (List.mem_cons_of_mem _ hm)
  exact ⟨isWord_string (hafter word List.mem_cons_self) hkind,
    fun m hm => hafter m (List.mem_cons_of_mem _ hm)⟩

theorem of_argument (hls : AllShaped ls) (w : Lexeme) :
    ((argument w ls).1.getD "" = "" ∨ IsWord ((argument w ls).1.getD "").toList) ∧
      AllShaped (argument w ls).2 := by
  cases ls with
  | nil => exact ⟨.inl rfl, hls⟩
  | cons m ms =>
      rw [argument]
      split
      · rename_i hmatch
        exact ⟨.inr (isWord_string (hls m List.mem_cons_self) hmatch.1),
          fun k hk => hls k (List.mem_cons_of_mem m hk)⟩
      · exact ⟨.inl rfl, hls⟩

theorem of_numeral {α : Type} {read? : List Char → Option α} {e : Expectation} {x : α}
    (hls : AllShaped ls) (h : numeral read? e l ls = .ok (x, rest)) : AllShaped rest := by
  obtain ⟨⟨m, after⟩, hnumber, hread⟩ := ok_of_bind h
  dsimp only at hread
  split at hread
  · obtain ⟨-, rfl⟩ := Prod.mk.inj (Except.ok.inj hread)
    obtain ⟨rfl, -⟩ := of_expect hnumber
    exact fun k hk => hls k (List.mem_cons_of_mem m hk)
  · cases hread

theorem of_keyword {k : Keyword} {i : Instruction} (hls : AllShaped ls)
    (h : keyword k l ls = .ok (i, rest)) : i.WellFormed ∧ AllShaped rest := by
  obtain ⟨hname, hafter⟩ := of_argument hls l
  cases k with
  | pause =>
      obtain ⟨⟨seconds, after⟩, hnumber, h⟩ := ok_of_bind h
      obtain ⟨rfl, rfl⟩ := Prod.mk.inj (Except.ok.inj h)
      exact ⟨trivial, of_numeral hls hnumber⟩
  | limit =>
      obtain ⟨⟨max, after⟩, hnumber, h⟩ := ok_of_bind h
      obtain ⟨rfl, rfl⟩ := Prod.mk.inj (Except.ok.inj h)
      exact ⟨trivial, of_numeral hls hnumber⟩
  | shutUp =>
      obtain ⟨rfl, rfl⟩ := Prod.mk.inj (Except.ok.inj h)
      exact ⟨trivial, hls⟩
  | parrot | allowObjects =>
      obtain ⟨rfl, rfl⟩ := Prod.mk.inj (Except.ok.inj h)
      exact ⟨trivial, hafter⟩
  | waitFor | dialog | override =>
      obtain ⟨rfl, rfl⟩ := Prod.mk.inj (Except.ok.inj h)
      exact ⟨hname, hafter⟩

theorem of_command {i : Instruction} (hls : AllShaped ls)
    (h : word.command l ls = .ok (i, rest)) : i.WellFormed ∧ AllShaped rest := by
  rw [word.command] at h
  split at h
  · exact of_keyword hls h
  · cases h

theorem of_word {i : Instruction} (hl : l.WellShaped) (hkind : l.kind = .word)
    (hls : AllShaped ls) (h : word l ls = .ok (i, rest)) : i.WellFormed ∧ AllShaped rest := by
  rw [word.eq_def] at h
  split at h
  · rename_i colon after
    split at h
    · obtain ⟨⟨text, afterText⟩, htext, hsay⟩ := ok_of_bind h
      obtain ⟨rfl, rfl⟩ := Prod.mk.inj (Except.ok.inj hsay)
      obtain ⟨rfl, hstring⟩ := of_expect htext
      have hafter : AllShaped (text :: afterText) := fun m hm => hls m (List.mem_cons_of_mem _ hm)
      exact ⟨⟨isWord_string hl hkind, not_mem_unquoted (hafter text List.mem_cons_self) hstring⟩,
        fun m hm => hafter m (List.mem_cons_of_mem _ hm)⟩
    · exact of_command hls h
  · exact of_command hls h

theorem of_passColon (hls : AllShaped ls) (number : Lexeme) : AllShaped (passColon number ls) := by
  cases ls with
  | nil => exact hls
  | cons m ms =>
      rw [passColon]
      split
      · exact fun k hk => hls k (List.mem_cons_of_mem m hk)
      · exact hls

theorem of_choiceText {text : String} (hls : AllShaped ls)
    (h : choiceText l ls = .ok (text, rest)) : AllShaped rest := by
  cases ls with
  | nil => cases h
  | cons m ms =>
      have hms : AllShaped ms := fun k hk => hls k (List.mem_cons_of_mem m hk)
      rw [choiceText] at h
      split at h
      · obtain ⟨-, rfl⟩ := Prod.mk.inj (Except.ok.inj h)
        exact hms
      · split at h
        · obtain ⟨-, rfl⟩ := Prod.mk.inj (Except.ok.inj h)
          exact hms
        · cases h

theorem of_choice {i : Instruction} (hls : AllShaped ls) (h : choice l ls = .ok (i, rest)) :
    i.WellFormed ∧ AllShaped rest := by
  rw [choice] at h
  split at h
  · cases h
  · obtain ⟨⟨text, afterText⟩, htext, h⟩ := ok_of_bind h
    obtain ⟨⟨name, after⟩, hname, h⟩ := ok_of_bind h
    obtain ⟨rfl, rfl⟩ := Prod.mk.inj (Except.ok.inj h)
    exact of_target (of_choiceText (of_passColon hls l) htext) hname

theorem of_instruction? {i : Instruction} (hl : l.WellShaped) (hls : AllShaped ls)
    (h : instruction? l ls = some (.ok (i, rest))) : i.WellFormed ∧ AllShaped rest := by
  rw [instruction?] at h
  split at h <;> rename_i hkind
  · exact of_word hl hkind hls (Option.some.inj h)
  · exact of_choice hls (Option.some.inj h)
  · obtain ⟨⟨name, after⟩, hname, h⟩ := ok_of_bind (Option.some.inj h)
    obtain ⟨rfl, rfl⟩ := Prod.mk.inj (Except.ok.inj h)
    exact of_target (List.forall_mem_cons.mpr ⟨hl, hls⟩) hname
  · obtain ⟨rfl, rfl⟩ := Prod.mk.inj (Except.ok.inj (Option.some.inj h))
    rw [Lexeme.WellShaped, hkind] at hl
    obtain ⟨body, htext, hline⟩ := hl
    dsimp only at htext
    refine ⟨?_, hls⟩
    rw [htext, List.drop_one, List.tail_cons]
    refine ⟨?_, ?_⟩
    · rw [String.toList_ofList]
      exact fun c hc => hline c ((prefix_trimEnd body).subset hc)
    · rw [String.toList_ofList, trimEnd_trimEnd]
  · obtain ⟨rfl, rfl⟩ := Prod.mk.inj (Except.ok.inj (Option.some.inj h))
    rw [Lexeme.WellShaped, hkind] at hl
    obtain ⟨body, htext, hline⟩ := hl
    dsimp only at htext
    refine ⟨?_, hls⟩
    have hdrop : l.text.drop Piece.waitWhileWord.length = body := by
      rw [htext, List.drop_left]
    rw [hdrop]
    refine ⟨?_, ?_⟩
    · rw [String.toList_ofList]
      exact fun c hc => hline c (mem_of_mem_trim hc)
    · rw [String.toList_ofList, trim_trim]
  · cases h

theorem of_conditions (hls : AllShaped ls) :
    (∀ c ∈ (conditions ls).1, c.WellFormed) ∧ AllShaped (conditions ls).2 := by
  refine ⟨fun c hc => ?_, fun m hm => hls m ((List.dropWhile_sublist _).subset hm)⟩
  obtain ⟨m, hm, rfl⟩ := List.mem_map.mp hc
  have hkind : decide (m.kind = .condition) = true :=
    List.mem_takeWhile_imp (p := fun m : Lexeme => decide (m.kind = .condition)) hm
  exact condition_wellFormed (hls m ((List.takeWhile_sublist _).subset hm))
    (of_decide_eq_true hkind)

theorem of_inner {c : Clause} (hl : l.WellShaped) (hls : AllShaped ls)
    (h : inner l ls = .ok (c, rest)) : c.WellFormed ∧ AllShaped rest := by
  rw [inner] at h
  split at h
  · obtain ⟨rfl, rfl⟩ := Prod.mk.inj (Except.ok.inj h)
    exact ⟨trivial, hls⟩
  · rename_i reading hfound
    obtain ⟨⟨instruction, after⟩, rfl, hstatement⟩ := ok_of_bind h
    obtain ⟨rfl, rfl⟩ := Prod.mk.inj (Except.ok.inj hstatement)
    obtain ⟨hinstruction, hafter⟩ := of_instruction? hl hls hfound
    obtain ⟨hconditions, hrest⟩ := of_conditions hafter
    exact ⟨⟨hinstruction, hconditions⟩, hrest⟩

theorem of_head {c : Clause} (hls : AllShaped ls) (h : head l ls = .ok (c, rest)) :
    c.WellFormed ∧ AllShaped rest := by
  obtain ⟨⟨name, after⟩, hname, hlabel⟩ := ok_of_bind h
  obtain ⟨rfl, rfl⟩ := Prod.mk.inj (Except.ok.inj hlabel)
  obtain ⟨rfl, hkind⟩ := of_expect hname
  exact ⟨isWord_string (hls name List.mem_cons_self) hkind,
    fun m hm => hls m (List.mem_cons_of_mem name hm)⟩

/-- A clause that is read is well-formed. -/
theorem wellFormed_of_read {opened : Bool} {c : Clause} (hl : l.WellShaped) (hls : AllShaped ls)
    (h : read opened l ls = .ok (c, rest)) : c.WellFormed ∧ AllShaped rest := by
  have hstray (h : strayLine l ls = .ok (c, rest)) : c.WellFormed ∧ AllShaped rest := by
    obtain ⟨rfl, rfl⟩ := Prod.mk.inj (Except.ok.inj h)
    exact ⟨trivial, fun m hm => hls m ((List.dropWhile_sublist _).subset hm)⟩
  unfold read at h
  split at h
  · exact of_head hls h
  · exact of_inner hl hls h
  · split at h
    · rename_i result hfound
      exact of_head hls (hfound.trans h)
    · exact hstray h
  · exact hstray h

/-- All clauses that are read are well-formed. -/
theorem wellFormed_of_all {opened : Bool} {cs : List Clause} (hls : AllShaped ls)
    (h : all opened ls = .ok cs) : ∀ c ∈ cs, c.WellFormed := by
  have htake (n : Nat) (opened : Bool) (ls : List Lexeme) (cs : List Clause) (hls : AllShaped ls)
      (h : take n opened ls = .ok cs) : ∀ c ∈ cs, c.WellFormed := by
    induction n generalizing opened ls cs with
    | zero =>
        obtain rfl := Except.ok.inj h
        simp
    | succ n ih =>
        cases ls with
        | nil =>
            obtain rfl := Except.ok.inj h
            simp
        | cons l ls =>
            obtain ⟨⟨clause, rest⟩, hclause, hrest⟩ := ok_of_bind h
            obtain ⟨clauses, hclauses, hcs⟩ := ok_of_bind hrest
            obtain rfl := Except.ok.inj hcs
            obtain ⟨hl, hls⟩ := List.forall_mem_cons.mp hls
            obtain ⟨hwell, hafter⟩ := wellFormed_of_read hl hls hclause
            exact List.forall_mem_cons.mpr ⟨hwell, ih _ _ _ hafter hclauses⟩
  exact htake _ _ _ _ hls h

end Clause

theorem wellFormed_gather {cs : List Clause} (hcs : ∀ c ∈ cs, c.WellFormed) :
    (∀ s ∈ (gather cs).1, s.WellFormed) ∧ ∀ l ∈ (gather cs).2, l.WellFormed := by
  induction cs with
  | nil => simp [gather]
  | cons c cs ih =>
      obtain ⟨hc, hcs⟩ := List.forall_mem_cons.mp hcs
      obtain ⟨hstatements, hlabels⟩ := ih hcs
      cases c with
      | label name =>
          exact ⟨by simp [gather], List.forall_mem_cons.mpr ⟨⟨hc, hstatements⟩, hlabels⟩⟩
      | statement s => exact ⟨List.forall_mem_cons.mpr ⟨hc, hstatements⟩, hlabels⟩
      | skipped | stray => exact ⟨hstatements, hlabels⟩

/-- A script that is read is well-formed. -/
theorem Script.wellFormed_of_read {source : String} {u : Script}
    (hread : Script.read source = .ok u) : u.WellFormed := by
  rw [Script.read, readChars] at hread
  split at hread
  · rename_i clauses hclauses
    obtain rfl := Except.ok.inj hread
    have hls : Clause.AllShaped (significant source.toList) :=
      fun l hl => Lexeme.wellShaped_of_mem_significant hl
    exact (wellFormed_gather (Clause.wellFormed_of_all hls hclauses)).2
  · cases hread

end DialogScript
