import DialogScript.Proofs.Script.Lines
import DialogScript.Proofs.Script.Taken
import DialogScript.Script.Reading

/-!
# Lexemes in other places

The reading of clauses asks for the kinds and the texts of lexemes and for which of them share a
line. Where they stand it passes on, into the lines of conditions and the places of faults, without
looking at it. So when lexemes are moved and those on different lines stay on different lines, the
same is read, moved. Nor does it look past the beginning of a clause on another line: lexemes that
start there may stand behind what is read, or none, and nothing is read otherwise.

Both are one law, for moved lexemes with others behind them, since it is proved by one passage
through the functions that read a clause.

## Main definitions

* `Lexeme.Move`: lexemes are put in other places
* `Lexeme.Move.outcome`: what is read, moved, before further lexemes
* `StartsApart`: lexemes that begin a clause on another line
* `Lexeme.sense`: what a lexeme is, apart from its offset
* `Error.unplaced`: an error without its column and the text of its line

## Main results

* `Clause.read_moved`, `Clause.all_moved`: what is read from moved lexemes, with others behind them
* `Clause.all_append`: what begins on another line is read as the next clauses
* `Clause.lexeme_mem_of_all`, `Script.lines_of_read`: faults are about lexemes of the source, and
  the lines of conditions are lines of lexemes
* `Script.read_congr_of_senses`: the layout of a source means nothing
-/

namespace DialogScript

/-- Lexemes are put in other places. Each keeps its kind and its text, and lexemes share a line
exactly if they did before. -/
structure Lexeme.Move where
  lexeme : Lexeme → Lexeme
  line : UInt32 → UInt32
  kind_lexeme : ∀ l, (lexeme l).kind = l.kind
  text_lexeme : ∀ l, (lexeme l).text = l.text
  line_lexeme : ∀ l, (lexeme l).line = line l.line
  line_injective : Function.Injective line

attribute [simp] Lexeme.Move.kind_lexeme Lexeme.Move.text_lexeme Lexeme.Move.line_lexeme

/-- The lexemes begin with a colon on another line, if there are any. -/
def StartsApart (line : UInt32) (more : List Lexeme) : Prop :=
  ∀ l ∈ more.head?, l.kind = .colon ∧ l.line ≠ line

theorem startsApart_nil (line : UInt32) : StartsApart line [] := fun _ hl => by cases hl

namespace Lexeme.Move

variable (m : Move) {α β : Type}

/-- The fault with its lexeme moved. -/
def fault : Fault → Fault
  | .unmet e anchor => .unmet e (m.lexeme anchor)
  | .unknownWord w => .unknownWord (m.lexeme w)

/-- The failure with its lexemes moved, before further lexemes. -/
def failure (more : List Lexeme) (f : Failure) : Failure :=
  ⟨m.fault f.fault, f.found.map m.lexeme ++ more⟩

/-- The clause with its lexeme and the lines of its conditions moved. -/
def clause : Clause → Clause
  | .label name => .label name
  | .statement s => .statement (s.mapLines m.line)
  | .skipped l => .skipped (m.lexeme l)
  | .stray l => .stray (m.lexeme l)

/-- What is read and what is left over, moved, before further lexemes. -/
def outcome (f : α → β) (more : List Lexeme) :
    Except Failure (α × List Lexeme) → Except Failure (β × List Lexeme)
  | .ok (x, rest) => .ok (f x, rest.map m.lexeme ++ more)
  | .error e => .error (m.failure more e)

variable {m} {more : List Lexeme}

@[simp] theorem isLabel_clause (c : Clause) : (m.clause c).isLabel = c.isLabel := by
  cases c <;> rfl

@[simp] theorem string_lexeme (l : Lexeme) : (m.lexeme l).string = l.string := by
  rw [string, text_lexeme, string]

@[simp] theorem unquoted_lexeme (l : Lexeme) : (m.lexeme l).unquoted = l.unquoted := by
  rw [unquoted, text_lexeme, unquoted]

theorem line_eq_iff {l k : Lexeme} : (m.lexeme l).line = (m.lexeme k).line ↔ l.line = k.line := by
  rw [line_lexeme, line_lexeme, m.line_injective.eq_iff]

theorem condition_ofLexeme (l : Lexeme) :
    Condition.ofLexeme (m.lexeme l) = (Condition.ofLexeme l).mapLine m.line := by
  rw [Condition.ofLexeme, text_lexeme, line_lexeme]
  rfl

/-- The first of the lexemes behind stands on another line than the moved lexeme. -/
theorem line_ne {l k : Lexeme} {ks : List Lexeme} (hmore : StartsApart (m.line l.line) (k :: ks)) :
    k.line ≠ (m.lexeme l).line := by
  rw [line_lexeme]
  exact (hmore k rfl).2

/-- All lexemes stay where they are. -/
def still : Move where
  lexeme := id
  line := id
  kind_lexeme _ := rfl
  text_lexeme _ := rfl
  line_lexeme _ := rfl
  line_injective := fun _ _ h => h

theorem clause_still (c : Clause) : still.clause c = c := by
  cases c with
  | statement s => exact congrArg Clause.statement s.mapLines_id
  | _ => rfl

/-- The lexemes outside of a list are moved, the others stay. -/
def besides (ls : List Lexeme) : Move where
  lexeme l := if l ∈ ls then l else { l with start := l.start + 1 }
  line := id
  kind_lexeme l := by split <;> rfl
  text_lexeme l := by split <;> rfl
  line_lexeme l := by split <;> rfl
  line_injective := fun _ _ h => h

theorem besides_eq_self_iff {ls : List Lexeme} {l : Lexeme} :
    (besides ls).lexeme l = l ↔ l ∈ ls := by
  constructor
  · intro hself
    refine Decidable.byContradiction fun hout => ?_
    have hstart : l.start + 1 = l.start := congrArg Lexeme.start ((if_neg hout).symm.trans hself)
    omega
  · exact fun hl => if_pos hl

theorem map_besides_eq_self_iff {ls ks : List Lexeme} :
    ks.map (besides ls).lexeme = ks ↔ ∀ k ∈ ks, k ∈ ls := by
  have hmap := List.map_inj_left (l := ks) (f := (besides ls).lexeme) (g := id)
  rw [List.map_id] at hmap
  exact hmap.trans (forall₂_congr fun k _ => besides_eq_self_iff)

/-- What is read in two steps is read from moved lexemes if both steps are. -/
theorem outcome_bind {γ δ : Type} {f : α → γ} {g : β → δ}
    {x : Except Failure (α × List Lexeme)} {k : α × List Lexeme → Except Failure (β × List Lexeme)}
    {k' : γ × List Lexeme → Except Failure (δ × List Lexeme)}
    (hk : ∀ a rest, k' (f a, rest.map m.lexeme ++ more) = m.outcome g more (k (a, rest))) :
    (m.outcome f more x >>= k') = m.outcome g more (x >>= k) := by
  cases x with
  | error e => rfl
  | ok result => exact hk result.1 result.2

end Lexeme.Move

namespace Clause

open Lexeme (Move)

variable {m : Move} {more : List Lexeme} {l : Lexeme}

/-! ### Moved lexemes with others behind them -/

theorem expect_moved (hmore : StartsApart (m.line l.line) more) (kind : TokenKind)
    (e : Expectation) (ls : List Lexeme) :
    expect kind e (m.lexeme l) (ls.map m.lexeme ++ more) =
      m.outcome m.lexeme more (expect kind e l ls) := by
  cases ls with
  | nil =>
      cases more with
      | nil => rfl
      | cons k ks => exact if_neg fun h => Move.line_ne hmore h.2
  | cons k ks =>
      simp only [List.map_cons, List.cons_append, expect, m.kind_lexeme, Move.line_eq_iff]
      split <;> rfl

theorem target_moved (hmore : StartsApart (m.line l.line) more) (ls : List Lexeme) :
    target (m.lexeme l) (ls.map m.lexeme ++ more) = m.outcome id more (target l ls) := by
  rw [target, expect_moved hmore]
  refine Move.outcome_bind fun arrow rest => ?_
  dsimp only
  rw [expect_moved hmore]
  refine Move.outcome_bind fun name rest => ?_
  dsimp only
  rw [Move.string_lexeme]
  rfl

theorem argument_moved (hmore : StartsApart (m.line l.line) more) (ls : List Lexeme) :
    argument (m.lexeme l) (ls.map m.lexeme ++ more) =
      ((argument l ls).1, (argument l ls).2.map m.lexeme ++ more) := by
  cases ls with
  | nil =>
      cases more with
      | nil => rfl
      | cons k ks =>
          have hkind : k.kind ≠ .word := by
            rw [(hmore k rfl).1]
            decide
          exact if_neg fun h => hkind h.1
  | cons k ks =>
      simp only [List.map_cons, List.cons_append, argument, m.kind_lexeme, Move.line_eq_iff,
        Move.string_lexeme]
      split <;> rfl

theorem numeral_moved {α : Type} (hmore : StartsApart (m.line l.line) more)
    (read? : List Char → Option α) (e : Expectation) (ls : List Lexeme) :
    numeral read? e (m.lexeme l) (ls.map m.lexeme ++ more) =
      m.outcome id more (numeral read? e l ls) := by
  rw [numeral, expect_moved hmore]
  refine Move.outcome_bind fun number rest => ?_
  dsimp only
  rw [m.text_lexeme]
  cases read? number.text <;> rfl

theorem keyword_moved (hmore : StartsApart (m.line l.line) more) (k : Keyword)
    (ls : List Lexeme) :
    keyword k (m.lexeme l) (ls.map m.lexeme ++ more) = m.outcome id more (keyword k l ls) := by
  cases k with
  | shutUp => rfl
  | pause | limit =>
      simp only [keyword, numeral_moved hmore]
      exact Move.outcome_bind fun x rest => rfl
  | waitFor | parrot | dialog | override | allowObjects =>
      rw [keyword, argument_moved hmore]
      rfl

theorem command_moved (hmore : StartsApart (m.line l.line) more) (ls : List Lexeme) :
    word.command (m.lexeme l) (ls.map m.lexeme ++ more) =
      m.outcome id more (word.command l ls) := by
  rw [word.command, word.command, m.text_lexeme]
  cases Keyword.ofWord? l.text with
  | none => rfl
  | some k => exact keyword_moved hmore k ls

theorem word_moved (hmore : StartsApart (m.line l.line) more) (ls : List Lexeme) :
    word (m.lexeme l) (ls.map m.lexeme ++ more) = m.outcome id more (word l ls) := by
  cases ls with
  | nil =>
      have hcommand : word (m.lexeme l) more = word.command (m.lexeme l) more := by
        cases more with
        | nil => rfl
        | cons k ks => exact if_neg fun h => Move.line_ne hmore h.2
      exact hcommand.trans (command_moved hmore [])
  | cons colon ks =>
      simp only [List.map_cons, List.cons_append, word, m.kind_lexeme, Move.line_eq_iff]
      split
      · rename_i hcolon
        -- The text has to stand on the line of the colon, which is that of the word.
        rw [expect_moved (hcolon.2 ▸ hmore)]
        refine Move.outcome_bind fun text rest => ?_
        dsimp only
        rw [Move.string_lexeme, Move.unquoted_lexeme]
        rfl
      · exact command_moved hmore (colon :: ks)

theorem passColon_moved (hmore : StartsApart (m.line l.line) more) (ls : List Lexeme) :
    passColon (m.lexeme l) (ls.map m.lexeme ++ more) =
      (passColon l ls).map m.lexeme ++ more := by
  cases ls with
  | nil =>
      cases more with
      | nil => rfl
      | cons k ks => exact if_neg fun h => Move.line_ne hmore h.2
  | cons k ks =>
      simp only [List.map_cons, List.cons_append, passColon, m.kind_lexeme, Move.line_eq_iff]
      split <;> rfl

theorem choiceText_moved (hmore : StartsApart (m.line l.line) more) (ls : List Lexeme) :
    choiceText (m.lexeme l) (ls.map m.lexeme ++ more) = m.outcome id more (choiceText l ls) := by
  cases ls with
  | nil =>
      cases more with
      | nil => rfl
      | cons k ks =>
          exact (if_neg fun h => Move.line_ne hmore h.1).trans
            (if_neg fun h => Move.line_ne hmore h.1)
  | cons k ks =>
      simp only [List.map_cons, List.cons_append, choiceText, m.kind_lexeme, Move.line_eq_iff,
        Move.unquoted_lexeme, Move.string_lexeme]
      split
      · rfl
      · split <;> rfl

theorem choice_moved (hmore : StartsApart (m.line l.line) more) (ls : List Lexeme) :
    choice (m.lexeme l) (ls.map m.lexeme ++ more) = m.outcome id more (choice l ls) := by
  rw [choice, choice, m.text_lexeme]
  cases Numeral.int32? l.text with
  | none => rfl
  | some n =>
      dsimp only
      rw [passColon_moved hmore, choiceText_moved hmore]
      refine Move.outcome_bind fun text rest => ?_
      dsimp only
      rw [target_moved hmore]
      exact Move.outcome_bind fun name rest => rfl

theorem instruction?_moved (hmore : StartsApart (m.line l.line) more) (ls : List Lexeme) :
    instruction? (m.lexeme l) (ls.map m.lexeme ++ more) =
      (instruction? l ls).map (m.outcome id more) := by
  rw [instruction?, instruction?, m.kind_lexeme, m.text_lexeme]
  cases l.kind with
  | word => exact congrArg some (word_moved hmore ls)
  | number => exact congrArg some (choice_moved hmore ls)
  | arrow =>
      dsimp only
      rw [← List.cons_append, ← List.map_cons, target_moved hmore]
      exact congrArg some (Move.outcome_bind fun name rest => rfl)
  | _ => rfl

theorem conditions_moved {line : UInt32} (hmore : StartsApart line more) (ls : List Lexeme) :
    conditions (ls.map m.lexeme ++ more) =
      ((conditions ls).1.map (·.mapLine m.line), (conditions ls).2.map m.lexeme ++ more) := by
  induction ls with
  | nil =>
      cases more with
      | nil => rfl
      | cons k ks =>
          have hkind : k.kind = .colon := (hmore k rfl).1
          simp [conditions, hkind]
  | cons k ks ih =>
      obtain ⟨htaken, hleft⟩ := Prod.mk.inj ih
      by_cases hkind : k.kind = .condition
      · simp only [conditions, List.map_cons, List.cons_append, List.takeWhile_cons,
          List.dropWhile_cons, m.kind_lexeme, hkind, decide_true, if_true,
          Move.condition_ofLexeme, htaken, hleft]
      · simp only [conditions, List.map_cons, List.cons_append, List.takeWhile_cons,
          List.dropWhile_cons, m.kind_lexeme, hkind, decide_false, Bool.false_eq_true, if_false,
          List.map_nil]

theorem inner_moved (hmore : StartsApart (m.line l.line) more) (ls : List Lexeme) :
    inner (m.lexeme l) (ls.map m.lexeme ++ more) = m.outcome m.clause more (inner l ls) := by
  rw [inner, inner, instruction?_moved hmore]
  cases instruction? l ls with
  | none => rfl
  | some reading =>
      refine Move.outcome_bind fun i rest => ?_
      dsimp only
      rw [conditions_moved hmore]
      rfl

theorem head_moved (hmore : StartsApart (m.line l.line) more) (ls : List Lexeme) :
    head (m.lexeme l) (ls.map m.lexeme ++ more) = m.outcome m.clause more (head l ls) := by
  rw [head, expect_moved hmore]
  refine Move.outcome_bind fun name rest => ?_
  dsimp only
  rw [Move.string_lexeme]
  rfl

theorem strayLine_moved (hmore : StartsApart (m.line l.line) more) (ls : List Lexeme) :
    strayLine (m.lexeme l) (ls.map m.lexeme ++ more) =
      m.outcome m.clause more (strayLine l ls) := by
  have hdrop : (ls.map m.lexeme ++ more).dropWhile (·.line = (m.lexeme l).line) =
      (ls.dropWhile (·.line = l.line)).map m.lexeme ++ more := by
    induction ls with
    | nil =>
        cases more with
        | nil => rfl
        | cons k ks =>
            have hline : k.line ≠ (m.lexeme l).line := Move.line_ne hmore
            exact List.dropWhile_cons_of_neg (by simpa using hline)
    | cons k ks ih =>
        simp only [List.map_cons, List.cons_append, List.dropWhile_cons, Move.line_eq_iff]
        split
        · exact ih
        · rfl
  exact congrArg (fun rest => Except.ok (Clause.stray (m.lexeme l), rest)) hdrop

/-- From moved lexemes, with others behind them that start on another line, the same clause is read,
moved, and the others are left over. -/
theorem read_moved (hmore : StartsApart (m.line l.line) more) (opened : Bool) (ls : List Lexeme) :
    read opened (m.lexeme l) (ls.map m.lexeme ++ more) =
      m.outcome m.clause more (read opened l ls) := by
  unfold read
  rw [m.kind_lexeme]
  cases opened <;> cases decide (l.kind = .colon)
  · exact strayLine_moved hmore ls
  · dsimp only
    rw [head_moved hmore]
    cases head l ls with
    | ok result => rfl
    | error e => exact strayLine_moved hmore ls
  · exact inner_moved hmore ls
  · exact head_moved hmore ls

/-! ### All clauses -/

/-- From moved lexemes, with others behind them that start on another line than any, the same
clauses are read, moved, and behind them the clauses of the others. -/
theorem all_moved {ls : List Lexeme} (hmore : ∀ l ∈ ls, StartsApart (m.line l.line) more)
    (opened : Bool) : all opened (ls.map m.lexeme ++ more) =
      match all opened ls with
      | .ok cs => (all (opened || cs.any isLabel) more).map (cs.map m.clause ++ ·)
      | .error e => .error (m.failure more e) := by
  induction opened, ls using all_induct with
  | nil opened =>
      simp only [all_nil, List.map_nil, List.nil_append, List.any_nil, Bool.or_false]
      cases all opened more <;> rfl
  | cons opened l ls ih =>
      rw [List.map_cons, List.cons_append, all_cons, all_cons,
        read_moved (hmore l List.mem_cons_self)]
      cases hread : read opened l ls with
      | error e => rfl
      | ok result =>
          obtain ⟨c, rest⟩ := result
          have hrest := ih c rest hread fun k hk =>
            hmore k ((took_of_read hread).suffix.subset hk)
          simp only [Move.outcome, bind, Except.bind, Move.isLabel_clause, hrest]
          cases all (opened || c.isLabel) rest with
          | error e => rfl
          | ok cs =>
              dsimp only [pure, Except.pure]
              rw [List.any_cons, Bool.or_assoc]
              cases all (opened || (c.isLabel || cs.any isLabel)) more <;> rfl

/-- From moved lexemes the same clauses are read, moved. -/
theorem all_map (m : Move) (opened : Bool) (ls : List Lexeme) : all opened (ls.map m.lexeme) =
    match all opened ls with
    | .ok cs => .ok (cs.map m.clause)
    | .error e => .error (m.failure [] e) := by
  have hmore : ∀ l ∈ ls, StartsApart (m.line l.line) [] := fun _ _ => startsApart_nil _
  have hmoved := all_moved hmore opened
  rw [List.append_nil] at hmoved
  rw [hmoved]
  cases all opened ls with
  | error e => rfl
  | ok cs => exact congrArg Except.ok (List.append_nil _)

/-- Behind lexemes that are read, lexemes that start on another line than any are read as the next
clauses. -/
theorem all_append {opened : Bool} {ls : List Lexeme} {cs : List Clause}
    (hmore : ∀ l ∈ ls, StartsApart l.line more) (hall : all opened ls = .ok cs) :
    all opened (ls ++ more) = (all (opened || cs.any isLabel) more).map (cs ++ ·) := by
  have hmoved := all_moved (m := .still) hmore opened
  have hls : ls.map Move.still.lexeme = ls := List.map_id ls
  have hcs : cs.map Move.still.clause = cs := List.map_id'' Move.clause_still cs
  rw [hall, hls] at hmoved
  rw [hmoved]
  dsimp only
  rw [hcs]

end Clause

/-! ### Lines and places -/

/-- The lexeme that a fault is about. -/
def Fault.lexeme : Fault → Lexeme
  | unmet _ anchor => anchor
  | unknownWord w => w

/-- The lines of the conditions of a clause, in order. -/
def Clause.lines : Clause → List UInt32
  | statement s => s.lines
  | _ => []

namespace Clause

variable {opened : Bool} {l : Lexeme} {ls rest : List Lexeme} {c : Clause} {cs : List Clause}

/-- A fault is about one of the lexemes that are read. -/
theorem lexeme_mem_of_all {e : Failure} (hall : all opened ls = .error e) :
    e.fault.lexeme ∈ ls := by
  have hmoved := all_map (.besides ls) opened ls
  rw [Lexeme.Move.map_besides_eq_self_iff.mpr fun _ hk => hk, hall] at hmoved
  have hfault : e.fault = (Lexeme.Move.besides ls).fault e.fault :=
    congrArg Failure.fault (Except.error.inj hmoved)
  rw [← Lexeme.Move.besides_eq_self_iff]
  cases hcase : e.fault with
  | unmet expectation anchor =>
      rw [hcase] at hfault
      exact (Fault.unmet.inj hfault).2.symm
  | unknownWord w =>
      rw [hcase] at hfault
      exact (Fault.unknownWord.inj hfault).symm

/-- The conditions of clauses stand on lines of the lexemes they are read from. -/
theorem lines_of_all (hall : all opened ls = .ok cs) :
    ∀ c ∈ cs, ∀ line ∈ c.lines, ∃ k ∈ ls, k.line = line := by
  have hlines (c : Clause) : c.lines = c.ownConditions.map Condition.line := by
    cases c with
    | statement s => exact List.map_eq_flatMap.symm
    | _ => rfl
  obtain ⟨taken, htaken, -, hconditions⟩ := (tookAll_of_all hall).conditions_eq
  intro c hc line hline
  rw [hlines] at hline
  obtain ⟨d, hd, rfl⟩ := List.mem_map.mp hline
  have hmem : d ∈ cs.flatMap ownConditions := List.mem_flatMap.mpr ⟨c, hc, hd⟩
  obtain ⟨k, hk, rfl⟩ := List.mem_map.mp (hconditions ▸ hmem)
  exact ⟨k, htaken.subset hk, rfl⟩

end Clause

theorem lines_gather (cs : List Clause) :
    (gather cs).1.flatMap Statement.lines ++ (gather cs).2.flatMap Label.lines =
      cs.flatMap Clause.lines :=
  flatMap_gather Statement.lines cs

theorem gather_moved (m : Lexeme.Move) (cs : List Clause) :
    gather (cs.map m.clause) =
      ((gather cs).1.map (·.mapLines m.line), (gather cs).2.map (·.mapLines m.line)) := by
  induction cs with
  | nil => rfl
  | cons c cs ih =>
      cases c with
      | label | statement =>
          rw [List.map_cons, Lexeme.Move.clause, gather, gather, ih]
          rfl
      | skipped | stray => exact ih

namespace Script

/-- Moved clauses make up the same script, with the lines of its conditions moved. -/
theorem ofClauses_moved (m : Lexeme.Move) (cs : List Clause) :
    ofClauses (cs.map m.clause) = (ofClauses cs).mapLines m.line :=
  congrArg Script.mk (congrArg Prod.snd (gather_moved m cs))

/-- The conditions of a script stand on lines of lexemes of its source. -/
theorem lines_of_read {source : String} {u : Script} (hread : Script.read source = .ok u) :
    ∀ line ∈ u.lines, ∃ l ∈ significant source.toList, l.line = line := by
  intro line hline
  rw [Script.read, readChars] at hread
  split at hread
  · rename_i clauses hclauses
    obtain rfl := Except.ok.inj hread
    have hmem : line ∈ clauses.flatMap Clause.lines := by
      rw [← lines_gather]
      exact List.mem_append_right _ hline
    obtain ⟨c, hc, hline⟩ := List.mem_flatMap.mp hmem
    exact Clause.lines_of_all hclauses c hc line hline
  · cases hread

end Script

/-! ### Layouts of one source -/

/-- What a lexeme is on its line: its kind and its text, and the line. -/
def Lexeme.sense (l : Lexeme) : TokenKind × List Char × UInt32 := (l.kind, l.text, l.line)

/-- The cause without the column and the text of the line. -/
def ErrorKind.unplaced : ErrorKind → ErrorKind
  | malformed message line _ _ => .malformed message line 0 ""
  | kind => kind

/-- The error without its column and the text of its line. -/
def Error.unplaced (e : Error) : Error := { e with kind := e.kind.unplaced }

/-- All lexemes are put at the beginning of the source, each on its line. -/
def Lexeme.Move.toFront : Lexeme.Move where
  lexeme l := { l with start := 0 }
  line := id
  kind_lexeme _ := rfl
  text_lexeme _ := rfl
  line_lexeme _ := rfl
  line_injective := fun _ _ h => h

theorem map_toFront_of_senses {ls ks : List Lexeme}
    (hsenses : ls.map Lexeme.sense = ks.map Lexeme.sense) :
    ls.map Lexeme.Move.toFront.lexeme = ks.map Lexeme.Move.toFront.lexeme := by
  let front (sense : TokenKind × List Char × UInt32) : Lexeme := ⟨sense.1, sense.2.1, 0, sense.2.2⟩
  have hfront (ls : List Lexeme) :
      ls.map Lexeme.Move.toFront.lexeme = (ls.map Lexeme.sense).map front := by
    rw [List.map_map]
    rfl
  rw [hfront, hfront, hsenses]

/-- What an error tells apart from its column and line text does not depend on the source, nor on
where on its line the lexeme of the fault stands. -/
theorem Fault.unplaced_error (source source' : List Char) (f : Fault) :
    (f.error source).unplaced = ((Lexeme.Move.toFront.fault f).error source').unplaced := by
  cases f <;> rfl

/-- Sources whose lexemes have the same senses are read as the same script, or have the same error
up to its column and the text of its line. -/
theorem Script.read_congr_of_senses {s t : String}
    (hsenses : (significant s.toList).map Lexeme.sense = (significant t.toList).map Lexeme.sense) :
    (Script.read s).mapError Error.unplaced = (Script.read t).mapError Error.unplaced := by
  have hread (s : String) : (Script.read s).mapError Error.unplaced =
      match Clause.all false ((significant s.toList).map Lexeme.Move.toFront.lexeme) with
      | .ok cs => .ok (ofClauses cs)
      | .error e => .error (e.fault.error []).unplaced := by
    rw [Clause.all_map, Script.read, readChars]
    cases Clause.all false (significant s.toList) with
    | error e => exact congrArg Except.error (e.fault.unplaced_error _ _)
    | ok cs =>
        dsimp only
        rw [ofClauses_moved]
        exact congrArg Except.ok (Script.mapLines_id (ofClauses cs)).symm
  rw [hread s, hread t, map_toFront_of_senses hsenses]

/-- Comments, blanks and characters of no token stand between the same lexemes. -/
theorem Script.read_congr_of_comments :
    (significant ":a\nb: \"x\" [once]\n1 -> a".toList).map Lexeme.sense =
        (significant " :a # c\n b\t:\"x\"?[once] ;\r\n  1 -> a\n".toList).map Lexeme.sense ∧
      (Script.read ":a\nb: \"x\" [once]\n1 -> a").mapError Error.unplaced =
        (Script.read " :a # c\n b\t:\"x\"?[once] ;\r\n  1 -> a\n").mapError Error.unplaced := by
  have hsenses : (significant ":a\nb: \"x\" [once]\n1 -> a".toList).map Lexeme.sense =
      (significant " :a # c\n b\t:\"x\"?[once] ;\r\n  1 -> a\n".toList).map Lexeme.sense := by
    decide +kernel
  exact ⟨hsenses, Script.read_congr_of_senses hsenses⟩

end DialogScript
