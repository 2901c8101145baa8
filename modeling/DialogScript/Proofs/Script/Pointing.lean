import DialogScript.Proofs.Script.Conditions
import DialogScript.Proofs.Script.Relocation
import DialogScript.Proofs.Text.Around

/-!
# What errors point at

An error is told of the lexeme that raised an expectation, not of the one that fails to meet it: the
colon before a name or a text, the keyword or the number of an instruction, the number of a choice,
the arrow. Each reader hands on the lexeme that it was called with, so the kind of the lexeme goes
with the expectation, which is proved along the readers. The position that is told is that of the
lexeme: it stands on the line of that number, whose text is told, in that column.

## Main definitions

* `Expectation.RaisedBy`: the tokens that raise an expectation
* `Token.StandsIn`: a token begins in a line of the source
* `Error.PointsInto`: an error tells a line of the source, and a token in it

## Main results

* `Clause.justified_of_all`: what raises an expectation that is not met
* `Script.error_points_into`: errors point into the source
-/

namespace DialogScript

/-! ### What raises an expectation -/

/-- A token of the kind with the text raises the expectation. -/
def Expectation.RaisedBy (kind : TokenKind) (text : List Char) : Expectation → Prop
  | labelName | sayText => kind = .colon
  | duration => kind = .number ∨ kind = .word ∧ text = Keyword.pause.word
  | limit => kind = .number ∨ kind = .word ∧ text = Keyword.limit.word
  | choiceNumber | choiceText | arrow => kind = .number
  | target => kind = .number ∨ kind = .arrow

/-- The fault is told of a lexeme that can raise it. -/
def Fault.Justified : Fault → Prop
  | unmet e anchor => e.RaisedBy anchor.kind anchor.text
  | unknownWord w => w.kind = .word ∧ Keyword.ofWord? w.text = none

/-- If a reading fails, its fault is told of a lexeme that can raise it. -/
def FailsJustly {α : Type} (x : Except Failure α) : Prop := ∀ f, x = .error f → f.fault.Justified

namespace FailsJustly

variable {α β : Type}

theorem ok (a : α) : FailsJustly (.ok a) := fun _ herror => by cases herror

theorem error {f : Failure} (hf : f.fault.Justified) :
    FailsJustly (.error f : Except Failure α) := by
  intro g herror
  obtain rfl := Except.error.inj herror
  exact hf

theorem bind {x : Except Failure α} {k : α → Except Failure β} (hx : FailsJustly x)
    (hk : ∀ a, x = .ok a → FailsJustly (k a)) : FailsJustly (x >>= k) := by
  cases x with
  | error f => exact error (hx f rfl)
  | ok a => exact hk a rfl

end FailsJustly

namespace Clause

variable {l w anchor : Lexeme} {ls : List Lexeme}

theorem failsJustly_expect {kind : TokenKind} (e : Expectation)
    (hanchor : e.RaisedBy anchor.kind anchor.text) (ls : List Lexeme) :
    FailsJustly (expect kind e anchor ls) := by
  cases ls with
  | nil => exact .error hanchor
  | cons l ls =>
      rw [expect]
      split
      · exact .ok _
      · exact .error hanchor

theorem failsJustly_target (hanchor : anchor.kind = .number) (ls : List Lexeme) :
    FailsJustly (target anchor ls) :=
  (failsJustly_expect .arrow hanchor ls).bind fun _ _ =>
    (failsJustly_expect .target (.inl hanchor) _).bind fun _ _ => .ok _

/-- An arrow that begins a statement is found, so what can be missing is the label behind it. -/
theorem failsJustly_target_cons (hanchor : anchor.kind = .arrow) (ls : List Lexeme) :
    FailsJustly (target anchor (anchor :: ls)) := by
  have hfound : expect .arrow .arrow anchor (anchor :: ls) = .ok (anchor, ls) :=
    if_pos ⟨hanchor, rfl⟩
  rw [target, hfound]
  exact (failsJustly_expect .target (.inr hanchor) _).bind fun _ _ => .ok _

theorem failsJustly_numeral {α : Type} {read? : List Char → Option α} (e : Expectation)
    (hword : e.RaisedBy w.kind w.text) (hnumber : ∀ text, e.RaisedBy .number text)
    (ls : List Lexeme) : FailsJustly (numeral read? e w ls) := by
  refine (failsJustly_expect e hword ls).bind fun ⟨l, rest⟩ hread => ?_
  dsimp only
  split
  · exact .ok _
  · refine .error ?_
    rw [Fault.Justified, (of_expect hread).2]
    exact hnumber l.text

theorem failsJustly_keyword {k : Keyword} (hkind : w.kind = .word) (htext : w.text = k.word)
    (ls : List Lexeme) : FailsJustly (keyword k w ls) := by
  cases k with
  | pause =>
      exact (failsJustly_numeral .duration (.inr ⟨hkind, htext⟩) (fun _ => .inl rfl) ls).bind
        fun _ _ => .ok _
  | limit =>
      exact (failsJustly_numeral .limit (.inr ⟨hkind, htext⟩) (fun _ => .inl rfl) ls).bind
        fun _ _ => .ok _
  | shutUp | waitFor | dialog | override | parrot | allowObjects => exact .ok _

theorem failsJustly_command (hkind : w.kind = .word) (ls : List Lexeme) :
    FailsJustly (word.command w ls) := by
  rw [word.command]
  split
  · rename_i k hk
    exact failsJustly_keyword hkind (Keyword.word_of_ofWord? hk).symm ls
  · exact .error ⟨hkind, ‹_›⟩

theorem failsJustly_word (hkind : w.kind = .word) (ls : List Lexeme) :
    FailsJustly (word w ls) := by
  rw [word.eq_def]
  split
  · split
    · rename_i hcolon
      exact (failsJustly_expect .sayText hcolon.1 _).bind fun _ _ => .ok _
    · exact failsJustly_command hkind _
  · exact failsJustly_command hkind _

theorem failsJustly_choiceText (hanchor : anchor.kind = .number) (ls : List Lexeme) :
    FailsJustly (choiceText anchor ls) := by
  cases ls with
  | nil => exact .error hanchor
  | cons l ls =>
      rw [choiceText]
      split
      · exact .ok _
      · split
        · exact .ok _
        · exact .error hanchor

theorem failsJustly_choice (hanchor : anchor.kind = .number) (ls : List Lexeme) :
    FailsJustly (choice anchor ls) := by
  rw [choice]
  split
  · exact .error hanchor
  · exact (failsJustly_choiceText hanchor _).bind fun _ _ =>
      (failsJustly_target hanchor _).bind fun _ _ => .ok _

theorem failsJustly_of_instruction? {reading : Except Failure (Instruction × List Lexeme)}
    (h : instruction? l ls = some reading) : FailsJustly reading := by
  rw [instruction?] at h
  split at h
  · obtain rfl := Option.some.inj h
    exact failsJustly_word ‹_› ls
  · obtain rfl := Option.some.inj h
    exact failsJustly_choice ‹_› ls
  · obtain rfl := Option.some.inj h
    exact (failsJustly_target_cons ‹_› ls).bind fun _ _ => .ok _
  · obtain rfl := Option.some.inj h
    exact .ok _
  · obtain rfl := Option.some.inj h
    exact .ok _
  · cases h

theorem failsJustly_inner (l : Lexeme) (ls : List Lexeme) : FailsJustly (inner l ls) := by
  rw [inner]
  split
  · exact .ok _
  · exact (failsJustly_of_instruction? ‹_›).bind fun _ _ => .ok _

theorem failsJustly_head (hkind : l.kind = .colon) (ls : List Lexeme) : FailsJustly (head l ls) :=
  (failsJustly_expect .labelName hkind ls).bind fun _ _ => .ok _

theorem failsJustly_read (opened : Bool) (l : Lexeme) (ls : List Lexeme) :
    FailsJustly (read opened l ls) := by
  unfold read
  split
  · exact failsJustly_head (of_decide_eq_true ‹_›) ls
  · exact failsJustly_inner l ls
  · split
    · exact .ok _
    · exact .ok _
  · exact .ok _

/-- Whatever clause fails, its fault is told of a lexeme that can raise it. -/
theorem justified_of_all (opened : Bool) (ls : List Lexeme) : FailsJustly (all opened ls) := by
  induction opened, ls using all_induct with
  | nil opened => exact .ok _
  | cons opened l ls ih =>
      rw [all_cons]
      exact (failsJustly_read opened l ls).bind fun ⟨c, rest⟩ hread =>
        (ih c rest hread).bind fun _ _ => .ok _

end Clause

/-! ### Where it stands -/

/-- The token of the source begins behind `k` characters of the line with this number and text. -/
structure Token.StandsIn (source : List Char) (t : Token) (number : UInt32) (text : List Char)
    (k : Nat) : Prop where
  mem : t ∈ tokens source
  line : ∃ before after, IsLine '\n' source before text after ∧
    number.toNat = 1 + before.count '\n' ∧ t.span.start = utf8Length (before ++ text.take k)
  inside : k < text.length

/-- The error tells a line of the source by its number, and a token that begins in it. If an
expectation is not met, the token raised it, and the text of the line and the column of the token
are told with it, which is the one of its first character, counted from one as far as columns go.
If a word is no instruction, it is the text of the token. -/
inductive Error.PointsInto (source : List Char) : Error → Prop
  | malformed {e : Expectation} {t : Token} {line column : UInt32} {text : String}
      {word : List Char} {k : Nat} (stands : t.StandsIn source line text.toList k)
      (word_eq : t.text? source = some word) (raised : e.RaisedBy t.kind word)
      (boundary : columnAt? source t.span.start = some column)
      (column_eq : column.toNat = min (k + 1) 4294967295) (column_pos : 1 ≤ column.toNat)
      (column_le : column.toNat ≤ text.toList.length) :
      PointsInto source { kind := .malformed e.message line column text }
  | unknownInstruction {t : Token} {line : UInt32} {name : String} {text : List Char} {k : Nat}
      (stands : t.StandsIn source line text k) (word_eq : t.text? source = some name.toList)
      (kind_eq : t.kind = .word) (unknown : ∀ keyword : Keyword, keyword.word ≠ name.toList) :
      PointsInto source { kind := .unknownInstruction name line }

variable {source : List Char} {l : Lexeme}

/-- Of the tokens, only line feeds begin with a line feed. -/
theorem Lexeme.exists_text_eq_cons (hl : l ∈ significant source) :
    ∃ c tail, l.text = c :: tail ∧ c ≠ '\n' := by
  obtain ⟨hmem, hkind⟩ := List.mem_filter.mp hl
  obtain ⟨before, p, after, hall, rfl⟩ := exists_eq_of_mem_lexemesFrom hmem
  have hp : p ∈ Piece.all source := hall ▸ List.mem_append_right _ List.mem_cons_self
  refine Piece.of_mem_all
    (P := fun p => !p.kind.isTrivia → ∃ c tail, p.text = c :: tail ∧ c ≠ '\n') ?_ hp hkind
  intro cs rest p hscan hkind
  obtain ⟨c, tail, -, -, rfl, -⟩ := Piece.exists_scanFrom_of_scan? hscan
  refine ⟨c, _, rfl, ?_⟩
  rintro rfl
  cases hkind

/-- A lexeme that carries meaning begins in a line of the source, at no place that cuts a
character. -/
theorem Lexeme.exists_standsIn (hl : l ∈ significant source)
    (hlines : source.count '\n' < 4294967295) :
    ∃ k, l.token.StandsIn source l.line (lineTextAt source l.start) k ∧
      columnAt? source l.start = some (saturated (k + 1)) := by
  have hmem : l ∈ lexemes source := List.mem_of_mem_filter hl
  have htoken : l.token ∈ tokens source := List.mem_append_left _ (List.mem_map_of_mem hmem)
  obtain ⟨c, tail, htext, hc⟩ := Lexeme.exists_text_eq_cons hl
  obtain ⟨before, after, hsource, hstart, hline⟩ := Lexeme.exists_eq_of_mem hmem
  obtain ⟨front, behind, hbefore, hisLine⟩ := exists_isLine_append before (l.text ++ after)
  rw [← hsource] at hisLine
  have hlineText : lineTextAt source l.start = lastLine before ++ firstLine (l.text ++ after) := by
    rw [hsource, hstart, lineTextAt_append_utf8Length]
  refine ⟨(lastLine before).length, ⟨htoken, ⟨front, behind, hlineText ▸ hisLine, ?_, ?_⟩, ?_⟩, ?_⟩
  · -- The line feeds before the lexeme are those before its line.
    have hfront : before.count '\n' = front.count '\n' := by
      conv_lhs => rw [hbefore]
      rw [List.count_append, List.count_eq_zero.mpr (feed_not_mem_lastLine before), Nat.add_zero]
    rw [hsource, List.count_append] at hlines
    rw [hline, toNat_saturated, hfront]
    omega
  · rw [hlineText, List.take_left, ← hbefore]
    exact hstart
  · have hfirst : firstLine (l.text ++ after) = c :: firstLine (tail ++ after) := by
      rw [htext]
      exact List.takeWhile_cons_of_pos (decide_eq_true hc)
    rw [hlineText, hfirst, List.length_append, List.length_cons]
    omega
  · rw [hsource, hstart, columnAt?_append_utf8Length]

theorem Keyword.word_ne_of_ofWord?_eq_none {w : List Char} (hw : ofWord? w = none) (k : Keyword) :
    k.word ≠ w := by
  rintro rfl
  rw [ofWord?_word] at hw
  cases hw

/-- An error that is told of a lexeme which can raise it points into the source. -/
theorem Fault.pointsInto {f : Fault} (hf : f.Justified) (hmem : f.lexeme ∈ significant source)
    (hlines : source.count '\n' < 4294967295) : (f.error source).PointsInto source := by
  obtain ⟨k, hstands, hcolumn⟩ := Lexeme.exists_standsIn hmem hlines
  have htext := Lexeme.text?_token (List.mem_of_mem_filter hmem)
  cases f with
  | unmet e anchor =>
      have hcolumn_eq : (saturated (k + 1)).toNat = min (k + 1) 4294967295 := toNat_saturated _
      have hinside : k < (lineTextAt source anchor.start).length := hstands.inside
      have herror : (Fault.unmet e anchor).error source = ⟨.malformed e.message anchor.line
          (saturated (k + 1)) (String.ofList (lineTextAt source anchor.start)), none⟩ := by
        rw [Fault.error, show columnAt? source anchor.start = _ from hcolumn]
        rfl
      rw [herror]
      refine .malformed (k := k) ?_ htext hf hcolumn hcolumn_eq ?_ ?_
      · rwa [String.toList_ofList]
      · omega
      · rw [String.toList_ofList]
        omega
  | unknownWord w =>
      refine .unknownInstruction hstands ?_ hf.1 ?_
      · rw [Lexeme.string, String.toList_ofList]
        exact htext
      · rw [Lexeme.string, String.toList_ofList]
        exact Keyword.word_ne_of_ofWord?_eq_none hf.2

end DialogScript
