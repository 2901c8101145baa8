import DialogScript.Proofs.Script.Relocation
import DialogScript.Proofs.Script.Taken
import DialogScript.Proofs.Token.Lexing

/-!
# Sources read side by side

Two sources whose lexemes correspond one to one are read clause by clause in the same way, as far as
the reading asks for no more than what corresponds. It asks for the kinds of lexemes, for which of
them share a line, and for the texts of words and numbers; other texts it only passes on. So the
second source may go on where the first one ends, as long as it does so on other lines than those
that the reading has come to, and its texts may differ where they only make up what is read.

A text identifier is passed on as it stands, into the text of a choice. There it may differ as well
if nothing follows it on its line, since that choice lacks its arrow.

## Main definitions

* `Comparison`: what corresponds in two sources
* `Comparison.Parallel`: the lexemes of two sources correspond
* `Comparison.Agree`: two readings come to the same end

## Main results

* `Clause.read_parallel`: corresponding lexemes are read as the same clause
* `Clause.all_parallel`: and as the same clauses, or with the same fault
-/

namespace DialogScript

/-- What corresponds in two sources. -/
structure Comparison where
  /-- The offsets in the two sources that correspond. -/
  place : Nat → Nat → Prop
  /-- The texts of lexemes correspond, and the second source has no more lexemes. -/
  exact : Prop
  /-- The lines on which the second source has no more lexemes. -/
  shared : UInt32 → Prop

/-- What is passed on of the text of a lexeme. -/
def Lexeme.gist (l : Lexeme) : List Char :=
  match l.kind with
  | .code => trimEnd (l.text.drop 1)
  | .waitWhile => trim (l.text.drop Piece.waitWhileWord.length)
  | _ => l.text

/-- The clause, if it is part of a script. -/
def Clause.kept? : Clause → Option Clause
  | label name => some (label name)
  | statement s => some (statement s)
  | _ => none

/-- A script is made up of the clauses that are part of one. -/
theorem gather_filterMap_kept? (cs : List Clause) :
    gather (cs.filterMap Clause.kept?) = gather cs := by
  induction cs with
  | nil => rfl
  | cons c cs ih =>
      cases c with
      | label name => exact congrArg (fun r => ([], ⟨name, r.1⟩ :: r.2)) ih
      | statement s => exact congrArg (fun r => (s :: r.1, r.2)) ih
      | skipped | stray => exact ih

namespace Comparison

variable {m : Comparison}

/-- The lexemes correspond. -/
structure Like (m : Comparison) (l k : Lexeme) : Prop where
  kind : k.kind = l.kind
  line : k.line = l.line
  place : m.place l.start k.start
  text : l.kind = .word ∨ l.kind = .number → k.text = l.text
  gist : m.exact → l.kind ≠ .textId → k.gist = l.gist

/-- The lexemes of two sources correspond, and those that only the second one has stand on other
lines. -/
inductive Parallel (m : Comparison) : List Lexeme → List Lexeme → Prop
  | ended {more : List Lexeme} (hexact : m.exact → more = [])
      (hmore : ∀ k ∈ more, ¬m.shared k.line) : Parallel m [] more
  | cons {l k : Lexeme} {ls ks : List Lexeme} (hlk : m.Like l k)
      (hid : m.exact → l.kind = .textId →
        k.text = l.text ∨ ∀ next ∈ ls.head?, next.line ≠ l.line)
      (hrest : Parallel m ls ks) : Parallel m (l :: ls) (k :: ks)

/-- The faults are the same, at lexemes that correspond. -/
inductive SameFault (m : Comparison) : Fault → Fault → Prop
  | unmet (e : Expectation) {l k : Lexeme} (hlk : m.Like l k) :
      SameFault m (.unmet e l) (.unmet e k)
  | unknownWord {l k : Lexeme} (hlk : m.Like l k) (htext : k.text = l.text) :
      SameFault m (.unknownWord l) (.unknownWord k)

/-- Both readings give results, which are related, or both come upon the same fault. -/
def Agree (m : Comparison) {α β : Type} (R : α → β → Prop) :
    Except Failure α → Except Failure β → Prop
  | .ok a, .ok b => R a b
  | .error e, .error f => m.SameFault e.fault f.fault
  | _, _ => False

/-- The same is read, and what is left over corresponds. -/
structure Same (m : Comparison) {α : Type} (p q : α × List Lexeme) : Prop where
  eq : m.exact → q.1 = p.1
  rest : m.Parallel p.2 q.2

/-- What is read is part of a script on both sides, and the same, or on neither. -/
structure SameClause (m : Comparison) (p q : Clause × List Lexeme) : Prop where
  isLabel : q.1.isLabel = p.1.isLabel
  kept : m.exact → q.1.kept? = p.1.kept?
  rest : m.Parallel p.2 q.2

theorem Agree.bind {α β γ δ : Type} {R : α → β → Prop} {S : γ → δ → Prop} {x : Except Failure α}
    {y : Except Failure β} {f : α → Except Failure γ} {g : β → Except Failure δ}
    (hxy : m.Agree R x y) (hfg : ∀ a b, x = .ok a → R a b → m.Agree S (f a) (g b)) :
    m.Agree S (x >>= f) (y >>= g) := by
  cases x with
  | error e =>
      cases y with
      | error f => exact hxy
      | ok b => exact hxy.elim
  | ok a =>
      cases y with
      | error f => exact hxy.elim
      | ok b => exact hfg a b rfl hxy

theorem Agree.exists_of_error {α β : Type} {R : α → β → Prop} {x : Except Failure α}
    {y : Except Failure β} {e : Failure} (hxy : m.Agree R x y) (hx : x = .error e) :
    ∃ f, y = .error f ∧ m.SameFault e.fault f.fault := by
  subst hx
  cases y with
  | error f => exact ⟨f, rfl, hxy⟩
  | ok b => exact hxy.elim

theorem Agree.exists_of_ok {α β : Type} {R : α → β → Prop} {x : Except Failure α}
    {y : Except Failure β} {a : α} (hxy : m.Agree R x y) (hx : x = .ok a) :
    ∃ b, y = .ok b ∧ R a b := by
  subst hx
  cases y with
  | error f => exact hxy.elim
  | ok b => exact ⟨b, rfl, hxy⟩

theorem Like.refl {l : Lexeme} (hplace : m.place l.start l.start) : m.Like l l :=
  ⟨rfl, rfl, hplace, fun _ => rfl, fun _ _ => rfl⟩

theorem Like.string_eq {l k : Lexeme} (hlk : m.Like l k) (hkind : l.kind = .word) :
    k.string = l.string := by
  rw [Lexeme.string, hlk.text (.inl hkind), Lexeme.string]

theorem Like.unquoted_eq {l k : Lexeme} (hlk : m.Like l k) (hkind : l.kind = .string)
    (hexact : m.exact) : k.unquoted = l.unquoted := by
  have hgist := hlk.gist hexact (by rw [hkind]; decide)
  rw [Lexeme.gist, Lexeme.gist, hlk.kind, hkind] at hgist
  exact congrArg (fun text => String.ofList (stripped '"' '"' text)) hgist

theorem Like.condition_eq {l k : Lexeme} (hlk : m.Like l k) (hkind : l.kind = .condition)
    (hexact : m.exact) : Condition.ofLexeme k = Condition.ofLexeme l := by
  have hgist := hlk.gist hexact (by rw [hkind]; decide)
  rw [Lexeme.gist, Lexeme.gist, hlk.kind, hkind] at hgist
  rw [Condition.ofLexeme, hlk.line, show k.text = l.text from hgist]
  rfl

theorem Parallel.behind {more more' : List Lexeme} (h : m.Parallel [] more)
    (hmore : more' <:+ more) : m.Parallel [] more' := by
  cases h with
  | ended hexact hlines =>
      exact .ended (fun he => List.suffix_nil.mp (hexact he ▸ hmore))
        fun k hk => hlines k (hmore.subset hk)

/-- The first of the lexemes that only the second source has stands on another line. -/
theorem Parallel.line_ne {l k next : Lexeme} {more : List Lexeme}
    (h : m.Parallel [] (next :: more)) (hlk : m.Like l k) (hl : m.shared l.line) :
    next.line ≠ k.line := by
  cases h with
  | ended _ hlines =>
      intro hline
      rw [hlk.line] at hline
      exact hlines next List.mem_cons_self (hline ▸ hl)

/-- Sources of which corresponding pieces are taken off, with lexemes behind them that correspond,
have lexemes that correspond. Pieces without meaning correspond if their kinds are the same. -/
theorem Parallel.of_scan? {p q : Piece} {cs cs' rest rest' : List Char} {o o' n : Nat}
    (hscan : Piece.scan? cs = some (p, rest)) (hscan' : Piece.scan? cs' = some (q, rest'))
    (hkind : q.kind = p.kind)
    (hlk : p.kind.isTrivia = false →
      m.Like ⟨p.kind, p.text, o, saturated (1 + n)⟩ ⟨q.kind, q.text, o', saturated (1 + n)⟩)
    (hid : m.exact → p.kind = .textId → q.text = p.text ∨
      ∀ next ∈ (lexed (o + utf8Length p.text) (n + p.text.count '\n') rest).head?,
        next.line ≠ saturated (1 + n))
    (hrest : m.Parallel (lexed (o + utf8Length p.text) (n + p.text.count '\n') rest)
      (lexed (o' + utf8Length q.text) (n + q.text.count '\n') rest')) :
    m.Parallel (lexed o n cs) (lexed o' n cs') := by
  cases hmeant : p.kind.isTrivia with
  | true =>
      rw [lexed_of_trivia hscan hmeant, lexed_of_trivia hscan' (hkind ▸ hmeant)]
      exact hrest
  | false =>
      rw [lexed_of_scan? hscan hmeant, lexed_of_scan? hscan' (hkind ▸ hmeant)]
      exact .cons (hlk hmeant) hid hrest

end Comparison

namespace Clause

open Comparison

variable {m : Comparison} {l k : Lexeme} {ls ks : List Lexeme}

/-! ### Functions that read a clause -/

theorem expect_parallel (hlk : m.Like l k) (hl : m.shared l.line) (h : m.Parallel ls ks)
    (kind : TokenKind) (e : Expectation) :
    m.Agree (fun p q => p.1.kind = kind ∧ m.Like p.1 q.1 ∧ m.Parallel p.2 q.2)
      (expect kind e l ls) (expect kind e k ks) := by
  cases h with
  | ended hexact hlines =>
      cases ks with
      | nil => exact .unmet e hlk
      | cons next more =>
          have hline := Parallel.line_ne (.ended hexact hlines) hlk hl
          rw [expect, expect, if_neg fun h => hline h.2]
          exact .unmet e hlk
  | @cons l' k' ls ks hlk' hid hrest =>
      rw [expect, expect, hlk'.kind, hlk'.line, hlk.line]
      split
      · rename_i hmatch
        exact ⟨hmatch.1, hlk', hrest⟩
      · exact .unmet e hlk

theorem target_parallel (hlk : m.Like l k) (hl : m.shared l.line) (h : m.Parallel ls ks) :
    m.Agree m.Same (target l ls) (target k ks) := by
  refine (expect_parallel hlk hl h _ _).bind ?_
  rintro ⟨arrow, ls⟩ ⟨arrow', ks⟩ - ⟨-, -, h⟩
  refine (expect_parallel hlk hl h _ _).bind ?_
  rintro ⟨name, ls⟩ ⟨name', ks⟩ - ⟨hkind, hname, h⟩
  exact ⟨fun _ => hname.string_eq hkind, h⟩

theorem argument_parallel (hlk : m.Like l k) (hl : m.shared l.line) (h : m.Parallel ls ks) :
    (argument k ks).1 = (argument l ls).1 ∧ m.Parallel (argument l ls).2 (argument k ks).2 := by
  cases h with
  | ended hexact hlines =>
      have h := Parallel.ended hexact hlines
      cases ks with
      | nil => exact ⟨rfl, h⟩
      | cons next more =>
          rw [argument, argument, if_neg fun hword => h.line_ne hlk hl hword.2]
          exact ⟨rfl, h⟩
  | @cons l' k' ls ks hlk' hid hrest =>
      rw [argument, argument, hlk'.kind, hlk'.line, hlk.line]
      split
      · rename_i hword
        exact ⟨congrArg some (hlk'.string_eq hword.1), hrest⟩
      · exact ⟨rfl, .cons hlk' hid hrest⟩

theorem numeral_parallel {α : Type} (hlk : m.Like l k) (hl : m.shared l.line)
    (h : m.Parallel ls ks) (read? : List Char → Option α) (e : Expectation) :
    m.Agree m.Same (numeral read? e l ls) (numeral read? e k ks) := by
  refine (expect_parallel hlk hl h _ _).bind ?_
  rintro ⟨number, ls⟩ ⟨number', ks⟩ - ⟨hkind, hnumber, h⟩
  dsimp only
  rw [hnumber.text (.inr hkind)]
  cases read? number.text with
  | none => exact .unmet e hnumber
  | some x => exact ⟨fun _ => rfl, h⟩

theorem keyword_parallel (hlk : m.Like l k) (hl : m.shared l.line) (h : m.Parallel ls ks)
    (word : Keyword) : m.Agree m.Same (keyword word l ls) (keyword word k ks) := by
  obtain ⟨hname, hrest⟩ := argument_parallel hlk hl h
  cases word with
  | shutUp => exact ⟨fun _ => rfl, h⟩
  | pause | limit =>
      refine (numeral_parallel hlk hl h _ _).bind ?_
      rintro ⟨x, ls⟩ ⟨x', ks⟩ - ⟨hx, h⟩
      exact ⟨fun he => by rw [show x' = x from hx he], h⟩
  | waitFor | parrot | dialog | override | allowObjects =>
      simp only [keyword, hname]
      exact ⟨fun _ => rfl, hrest⟩

theorem command_parallel (hlk : m.Like l k) (hkind : l.kind = .word) (hl : m.shared l.line)
    (h : m.Parallel ls ks) : m.Agree m.Same (word.command l ls) (word.command k ks) := by
  have htext := hlk.text (.inl hkind)
  rw [word.command, word.command, htext]
  cases Keyword.ofWord? l.text with
  | none => exact .unknownWord hlk htext
  | some word => exact keyword_parallel hlk hl h word

theorem word_parallel (hlk : m.Like l k) (hkind : l.kind = .word) (hl : m.shared l.line)
    (h : m.Parallel ls ks) : m.Agree m.Same (word l ls) (word k ks) := by
  have hcommand := command_parallel hlk hkind hl h
  cases h with
  | ended hexact hlines =>
      cases ks with
      | nil => exact hcommand
      | cons next more =>
          have hline := Parallel.line_ne (.ended hexact hlines) hlk hl
          rw [word, word, if_neg fun h => hline h.2]
          exact hcommand
  | @cons colon colon' ls ks hcolon hid hrest =>
      rw [word, word, hcolon.kind, hcolon.line, hlk.line]
      split
      · rename_i hmatch
        -- The text has to stand on the line of the colon, which is that of the word.
        refine (expect_parallel hcolon (hmatch.2 ▸ hl) hrest _ _).bind ?_
        rintro ⟨text, ls⟩ ⟨text', ks⟩ - ⟨htext, htexts, h⟩
        refine ⟨fun he => ?_, h⟩
        dsimp only
        rw [hlk.string_eq hkind, htexts.unquoted_eq htext he]
      · exact hcommand

theorem passColon_parallel (hlk : m.Like l k) (hl : m.shared l.line) (h : m.Parallel ls ks) :
    m.Parallel (passColon l ls) (passColon k ks) := by
  cases h with
  | ended hexact hlines =>
      have h := Parallel.ended hexact hlines
      cases ks with
      | nil => exact h
      | cons next more =>
          rw [passColon, passColon, if_neg fun hcolon => h.line_ne hlk hl hcolon.2]
          exact h
  | @cons l' k' ls ks hlk' hid hrest =>
      rw [passColon, passColon, hlk'.kind, hlk'.line, hlk.line]
      split
      · exact hrest
      · exact .cons hlk' hid hrest

/-- The texts of choices are the same, or nothing follows the first one on the line. -/
theorem choiceText_parallel (hlk : m.Like l k) (hl : m.shared l.line) (h : m.Parallel ls ks) :
    m.Agree (fun p q => m.Parallel p.2 q.2 ∧
        (m.exact → q.1 = p.1 ∨ ∀ next ∈ p.2.head?, next.line ≠ l.line))
      (choiceText l ls) (choiceText k ks) := by
  cases h with
  | ended hexact hlines =>
      cases ks with
      | nil => exact .unmet .choiceText hlk
      | cons next more =>
          have hline := Parallel.line_ne (.ended hexact hlines) hlk hl
          rw [choiceText, choiceText, if_neg fun h => hline h.1, if_neg fun h => hline h.1]
          exact .unmet .choiceText hlk
  | @cons l' k' ls ks hlk' hid hrest =>
      rw [choiceText, choiceText, hlk'.kind, hlk'.line, hlk.line]
      split
      · rename_i hstring
        exact ⟨hrest, fun he => .inl (hlk'.unquoted_eq hstring.2 he)⟩
      · split
        · rename_i htextId
          refine ⟨hrest, fun he => ?_⟩
          rw [← htextId.1]
          exact (hid he htextId.2).imp_left (congrArg String.ofList)
        · exact .unmet .choiceText hlk

/-- No target is read where nothing follows on the line. -/
theorem target_of_line_ne (hline : ∀ next ∈ ls.head?, next.line ≠ l.line) :
    target l ls = .error ⟨.unmet .arrow l, ls⟩ := by
  cases ls with
  | nil => rfl
  | cons next ls =>
      rw [target, expect, if_neg fun h => hline next rfl h.2]
      rfl

theorem choice_parallel (hlk : m.Like l k) (hkind : l.kind = .number) (hl : m.shared l.line)
    (h : m.Parallel ls ks) : m.Agree m.Same (choice l ls) (choice k ks) := by
  rw [choice, choice, hlk.text (.inr hkind)]
  cases Numeral.int32? l.text with
  | none => exact .unmet .choiceNumber hlk
  | some n =>
      refine (choiceText_parallel hlk hl (passColon_parallel hlk hl h)).bind ?_
      rintro ⟨text, ls⟩ ⟨text', ks⟩ - ⟨h, htext⟩
      refine (target_parallel hlk hl h).bind ?_
      rintro ⟨name, ls'⟩ ⟨name', ks'⟩ hread ⟨hname, h⟩
      refine ⟨fun he => ?_, h⟩
      -- A target was read, so the text is one that both sides have.
      have hsame : text' = text := (htext he).resolve_right fun hline => by
        rw [target_of_line_ne hline] at hread
        cases hread
      rw [hsame, show name' = name from hname he]

theorem instruction?_parallel (hl : m.shared l.line) (h : m.Parallel (l :: ls) (k :: ks)) :
    Option.Rel (m.Agree m.Same) (instruction? l ls) (instruction? k ks) := by
  have hfront := h
  cases h with
  | cons hlk hid hrest =>
      rw [instruction?, instruction?, hlk.kind]
      cases hkind : l.kind with
      | word => exact .some (word_parallel hlk hkind hl hrest)
      | number => exact .some (choice_parallel hlk hkind hl hrest)
      | arrow =>
          refine .some ((target_parallel hlk hl hfront).bind ?_)
          rintro ⟨name, ls⟩ ⟨name', ks⟩ - ⟨hname, h⟩
          exact ⟨fun he => by rw [show name' = name from hname he], h⟩
      | code =>
          refine .some ⟨fun he => ?_, hrest⟩
          have hgist := hlk.gist he (by rw [hkind]; decide)
          rw [Lexeme.gist, Lexeme.gist, hlk.kind, hkind] at hgist
          exact congrArg (fun text => Instruction.code (String.ofList text)) hgist
      | waitWhile =>
          refine .some ⟨fun he => ?_, hrest⟩
          have hgist := hlk.gist he (by rw [hkind]; decide)
          rw [Lexeme.gist, Lexeme.gist, hlk.kind, hkind] at hgist
          exact congrArg (fun text => Instruction.waitWhile (String.ofList text)) hgist
      | _ => exact .none

theorem conditions_parallel (h : m.Parallel ls ks) : m.Same (conditions ls) (conditions ks) := by
  induction h with
  | ended hexact hlines =>
      refine ⟨fun he => ?_, (Parallel.ended hexact hlines).behind (List.dropWhile_suffix _)⟩
      rw [hexact he]
  | @cons l k ls ks hlk hid hrest ih =>
      by_cases hkind : l.kind = .condition
      · have htaken (he : m.exact) := ih.eq he
        have hleft := ih.rest
        simp only [conditions] at htaken hleft
        refine ⟨fun he => ?_, ?_⟩
        · simp only [conditions, List.takeWhile_cons, hlk.kind, hkind, decide_true, if_true,
            List.map_cons, htaken he, hlk.condition_eq hkind he]
        · simpa only [conditions, List.dropWhile_cons, hlk.kind, hkind, decide_true, if_true]
            using hleft
      · refine ⟨fun _ => ?_, ?_⟩
        · simp only [conditions, List.takeWhile_cons, hlk.kind, hkind, decide_false,
            Bool.false_eq_true, if_false, List.map_nil]
        · simpa only [conditions, List.dropWhile_cons, hlk.kind, hkind, decide_false,
            Bool.false_eq_true, if_false] using Parallel.cons hlk hid hrest

theorem inner_parallel (hl : m.shared l.line) (h : m.Parallel (l :: ls) (k :: ks)) :
    m.Agree m.SameClause (inner l ls) (inner k ks) := by
  have hread := instruction?_parallel hl h
  rw [inner, inner]
  generalize instruction? l ls = x at hread ⊢
  generalize instruction? k ks = y at hread ⊢
  cases hread with
  | none =>
      cases h with
      | cons hlk hid hrest => exact ⟨rfl, fun _ => rfl, hrest⟩
  | some hread =>
      refine hread.bind ?_
      rintro ⟨i, ls⟩ ⟨i', ks⟩ - ⟨hi, h⟩
      have hconditions := conditions_parallel h
      refine ⟨rfl, fun he => ?_, hconditions.rest⟩
      dsimp only
      rw [hconditions.eq he, show i' = i from hi he]

theorem head_parallel (hl : m.shared l.line) (h : m.Parallel (l :: ls) (k :: ks)) :
    m.Agree m.SameClause (head l ls) (head k ks) := by
  cases h with
  | cons hlk hid hrest =>
      refine (expect_parallel hlk hl hrest _ _).bind ?_
      rintro ⟨name, ls⟩ ⟨name', ks⟩ - ⟨hkind, hname, h⟩
      exact ⟨rfl, fun _ => by rw [hname.string_eq hkind], h⟩

theorem strayLine_parallel (h : m.Parallel (l :: ls) (k :: ks)) :
    m.Agree m.SameClause (strayLine l ls) (strayLine k ks) := by
  cases h with
  | cons hlk hid hrest =>
      refine ⟨rfl, fun _ => rfl, ?_⟩
      dsimp only
      rw [hlk.line]
      clear hid
      induction hrest with
      | ended hexact hlines =>
          exact (Parallel.ended hexact hlines).behind (List.dropWhile_suffix _)
      | @cons l' k' ls ks hlk' hid' hrest ih =>
          rw [List.dropWhile_cons, List.dropWhile_cons, hlk'.line]
          split
          · exact ih
          · exact .cons hlk' hid' hrest

/-- Lexemes that correspond are read as the same clause, or with the same fault. -/
theorem read_parallel (hl : m.shared l.line) (h : m.Parallel (l :: ls) (k :: ks))
    (opened : Bool) : m.Agree m.SameClause (read opened l ls) (read opened k ks) := by
  have hkind : k.kind = l.kind := by
    cases h with
    | cons hlk => exact hlk.kind
  unfold read
  rw [hkind]
  cases opened <;> cases decide (l.kind = .colon)
  · exact strayLine_parallel h
  · have hhead := head_parallel hl h
    dsimp only
    generalize head l ls = x at hhead ⊢
    generalize head k ks = y at hhead ⊢
    cases x <;> cases y
    · exact strayLine_parallel h
    · exact hhead.elim
    · exact hhead.elim
    · exact hhead
  · exact inner_parallel hl h
  · exact head_parallel hl h

/-! ### All clauses -/

/-- A sequence of two steps fails only if one of the steps does. -/
theorem error_of_bind {ε α β : Type} {x : Except ε α} {f : α → Except ε β} {e : ε}
    (h : x >>= f = .error e) : x = .error e ∨ ∃ a, x = .ok a ∧ f a = .error e := by
  cases x with
  | error _ => exact .inl (congrArg _ (Except.error.inj h))
  | ok a => exact .inr ⟨a, rfl, h⟩

/-- A fault in the first source is one in the second source, if that has no more lexemes on the
lines up to the fault. -/
theorem all_error_of_parallel {opened : Bool} {e : Failure} (h : m.Parallel ls ks)
    (hsorted : ls.Pairwise fun a b => a.line ≤ b.line) (hall : all opened ls = .error e)
    (hshared : ∀ a ∈ ls, a.line ≤ e.fault.lexeme.line → m.shared a.line) :
    ∃ f, all opened ks = .error f ∧ m.SameFault e.fault f.fault := by
  induction opened, ls using all_induct generalizing ks with
  | nil opened => cases hall
  | cons opened l ls ih =>
      -- The fault is about a lexeme of the source, none of which stands before the first one.
      have hfirst : l.line ≤ e.fault.lexeme.line := by
        rcases List.mem_cons.mp (lexeme_mem_of_all hall) with heq | hmem
        · exact heq ▸ UInt32.le_refl _
        · exact List.rel_of_pairwise_cons hsorted hmem
      cases h with
      | @cons _ k _ ks hlk hid hrest =>
          have hread := read_parallel (hshared l List.mem_cons_self hfirst)
            (.cons hlk hid hrest) opened
          rw [all_cons] at hall ⊢
          rcases error_of_bind hall with hleft | ⟨⟨c, left⟩, hleft, hall⟩
          · obtain ⟨f, hright, hsame⟩ := hread.exists_of_error hleft
            exact ⟨f, by rw [hright]; rfl, hsame⟩
          · obtain ⟨⟨d, right⟩, hright, hclause⟩ := hread.exists_of_ok hleft
            have hsuffix := (took_of_read hleft).suffix
            have hbehind := (error_of_bind hall).resolve_right fun ⟨_, _, h⟩ => by cases h
            obtain ⟨f, hf, hsame⟩ := ih c left hleft hclause.rest
              (hsorted.sublist hsuffix.sublist) hbehind fun a ha => hshared a (hsuffix.subset ha)
            refine ⟨f, ?_, hsame⟩
            have hlabel : d.isLabel = c.isLabel := hclause.isLabel
            rw [hright]
            simp only [bind, Except.bind, hlabel, hf]

/-- Where all corresponds, what can be read in the first source is read in the second one. -/
theorem all_ok_of_parallel {opened : Bool} {cs : List Clause} (hexact : m.exact)
    (h : m.Parallel ls ks) (hshared : ∀ a ∈ ls, m.shared a.line) (hall : all opened ls = .ok cs) :
    ∃ ds, all opened ks = .ok ds ∧ ds.filterMap kept? = cs.filterMap kept? := by
  induction opened, ls using all_induct generalizing ks cs with
  | nil opened =>
      cases h with
      | ended hmore =>
          obtain rfl := hmore hexact
          exact ⟨cs, hall, rfl⟩
  | cons opened l ls ih =>
      cases h with
      | @cons _ k _ ks hlk hid hrest =>
          have hread := read_parallel (hshared l List.mem_cons_self) (.cons hlk hid hrest) opened
          rw [all_cons] at hall
          obtain ⟨⟨c, left⟩, hleft, hall⟩ := ok_of_bind hall
          obtain ⟨cs', hbehind, hall⟩ := ok_of_bind hall
          obtain rfl := Except.ok.inj hall
          obtain ⟨⟨d, right⟩, hright, hclause⟩ := hread.exists_of_ok hleft
          obtain ⟨ds, hds, hkept⟩ := ih c left hleft hclause.rest
            (fun a ha => hshared a ((took_of_read hleft).suffix.subset ha)) hbehind
          have hlabel : d.isLabel = c.isLabel := hclause.isLabel
          have hsame : d.kept? = c.kept? := hclause.kept hexact
          refine ⟨d :: ds, ?_, by rw [List.filterMap_cons, List.filterMap_cons, hsame, hkept]⟩
          rw [all_cons, hright]
          simp only [bind, Except.bind, hlabel, hds]
          rfl

end Clause

end DialogScript
