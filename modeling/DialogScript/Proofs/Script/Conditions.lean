import DialogScript.Proofs.Script.Taken
import DialogScript.Proofs.Token.Order
import Mathlib.Data.List.Forall2

/-!
# Where conditions stand

Every condition of a script was a token of its source: the text between the brackets of the token
makes up the condition, and its line is the line of the token. Conditions keep the order of their
tokens, though some tokens are passed over, those that stand behind no statement.

## Main definitions

* `Script.conditions`: the conditions of a script, in order
* `Condition.WrittenAt`: a condition is what a token says, on the line of the token

## Main results

* `Script.exists_conditions_eq`: the conditions of a script are lexemes of its source
* `Script.conditions_of_read`: they are tokens of it, on the lines of the tokens
-/

namespace DialogScript

/-- The conditions of a label, in order. -/
def Label.conditions (l : Label) : List Condition := l.statements.flatMap Statement.conditions

/-- The conditions of a script, in order. -/
def Script.conditions (u : Script) : List Condition := u.labels.flatMap Label.conditions

/-- The token of a source is the text of the condition between brackets, the closing one of which
may be missing, on the line of the condition. -/
structure Condition.WrittenAt (source : List Char) (c : Condition) (t : Token) : Prop where
  kind : t.kind = .condition
  text : ∃ body, ']' ∉ body ∧ c.gate = Gate.ofText (String.ofList body) ∧
    (t.text? source = some ('[' :: (body ++ [']'])) ∨ t.text? source = some ('[' :: body))
  line : c.line.toNat = 1 + (upTo source t.span.start).count '\n'

/-! ### One condition -/

variable {source : List Char} {l : Lexeme}

theorem Lexeme.text?_token (hl : l ∈ lexemes source) : l.token.text? source = some l.text := by
  obtain ⟨before, after, hsource, hstart, -⟩ := exists_eq_of_mem hl
  exact Span.text?_eq_some_iff.mpr ⟨before, after, hsource, hstart, rfl⟩

theorem stripped_open {opening closing : Char} {body : List Char} (hbody : closing ∉ body) :
    stripped opening closing (opening :: body) = body := by
  rw [stripped, List.head?_cons, if_pos rfl, List.tail_cons]
  exact if_neg fun hlast => hbody (List.mem_of_getLast? hlast)

theorem Condition.writtenAt_ofLexeme (hl : l ∈ significant source) (hkind : l.kind = .condition)
    (hlines : source.count '\n' < 4294967295) :
    (Condition.ofLexeme l).WrittenAt source l.token := by
  have hmem : l ∈ lexemes source := List.mem_of_mem_filter hl
  have hshaped := Lexeme.wellShaped_of_mem_significant hl
  rw [Lexeme.WellShaped, hkind] at hshaped
  obtain ⟨body, hbody, htext⟩ := hshaped
  refine ⟨hkind, ⟨body, hbody, ?_, ?_⟩, ?_⟩
  · rw [ofLexeme]
    rcases htext with htext | htext <;> dsimp only at htext <;> rw [htext]
    · rw [stripped_open hbody]
    · rw [stripped_between]
  · rw [Lexeme.text?_token hmem]
    exact htext.symm.imp (congrArg some) (congrArg some)
  · obtain ⟨before, after, rfl, hstart, hline⟩ := Lexeme.exists_eq_of_mem hmem
    rw [List.count_append] at hlines
    change l.line.toNat = 1 + (upTo (before ++ (l.text ++ after)) l.start).count '\n'
    rw [hline, hstart, upTo_append_utf8Length, toNat_saturated]
    omega

/-! ### All conditions -/

theorem conditions_gather (cs : List Clause) :
    (gather cs).1.flatMap Statement.conditions ++ (gather cs).2.flatMap Label.conditions =
      cs.flatMap Clause.ownConditions :=
  flatMap_gather Statement.conditions cs

namespace Script

/-- The conditions of a script are some of the condition lexemes of its source, in order. -/
theorem exists_conditions_eq {source : String} {u : Script} (hread : Script.read source = .ok u) :
    ∃ taken : List Lexeme, taken.Sublist (significant source.toList) ∧
      (∀ k ∈ taken, k.kind = .condition) ∧ u.conditions = taken.map Condition.ofLexeme := by
  rw [Script.read, readChars] at hread
  split at hread
  · rename_i clauses hclauses
    obtain rfl := Except.ok.inj hread
    obtain ⟨taken, htaken, hkinds, hconditions⟩ :=
      (Clause.tookAll_of_all hclauses).conditions_eq
    rw [← conditions_gather] at hconditions
    obtain ⟨before, behind, rfl, -, hbehind⟩ := List.map_eq_append_iff.mp hconditions.symm
    exact ⟨behind, (List.sublist_append_right _ _).trans htaken,
      fun k hk => hkinds k (List.mem_append_right _ hk), hbehind.symm⟩
  · cases hread

/-- The conditions of a script are tokens of its source, in order, each on the line of its token. So
their lines do not decrease, and none is behind the last line of the source. -/
theorem conditions_of_read {source : String} {u : Script} (hread : Script.read source = .ok u)
    (hlines : source.toList.count '\n' < 4294967295) :
    (∃ ts : List Token, ts.Sublist (tokens source.toList) ∧
      List.Forall₂ (Condition.WrittenAt source.toList) u.conditions ts) ∧
    (u.conditions.map Condition.line).Pairwise (· ≤ ·) ∧
    ∀ c ∈ u.conditions, c.line.toNat ≤ 1 + source.toList.count '\n' := by
  obtain ⟨taken, htaken, hkinds, hconditions⟩ := exists_conditions_eq hread
  have hwritten (k : Lexeme) (hk : k ∈ taken) :
      (Condition.ofLexeme k).WrittenAt source.toList k.token :=
    Condition.writtenAt_ofLexeme (htaken.subset hk) (hkinds k hk) hlines
  rw [hconditions]
  refine ⟨⟨taken.map Lexeme.token, ?_, ?_⟩, ?_, ?_⟩
  · exact ((htaken.trans List.filter_sublist).map _).trans (List.sublist_append_left _ _)
  · rw [List.forall₂_map_left_iff, List.forall₂_map_right_iff, List.forall₂_same]
    exact hwritten
  · rw [List.map_map]
    exact ((pairwise_before_significant _).sublist htaken).map _ fun _ _ hlk => hlk.line_le
  · intro c hc
    obtain ⟨k, hk, rfl⟩ := List.mem_map.mp hc
    have hline := (line_of_mem_significant (htaken.subset hk)).2
    exact hline.trans (Nat.le_of_eq (Nat.add_comm _ _))

/-- A condition that belongs to no statement is left out, and those behind a text of two lines and
on later lines are counted right. -/
theorem conditions_of_two_line_text :
    let source := ":a\n[lost]\nb: \"x\ny\" [once]\n[f\ng] [onceever]\n"
    let u : Script := ⟨[⟨"a", [⟨.say "b" "x\ny",
      [⟨.scope .once, 4⟩, ⟨.code "f\ng", 5⟩, ⟨.scope .onceEver, 6⟩]⟩]⟩]⟩
    Script.read source = .ok u ∧ source.toList.count '\n' < 4294967295 ∧
      (∃ ts : List Token, ts.Sublist (tokens source.toList) ∧
        List.Forall₂ (Condition.WrittenAt source.toList) u.conditions ts) ∧
      (u.conditions.map Condition.line).Pairwise (· ≤ ·) ∧
      ∀ c ∈ u.conditions, c.line.toNat ≤ 1 + source.toList.count '\n' := by
  intro source u
  have hread : Script.read source = .ok u := by decide +kernel
  have hlines : source.toList.count '\n' < 4294967295 := by decide +kernel
  exact ⟨hread, hlines, conditions_of_read hread hlines⟩

end Script

end DialogScript
