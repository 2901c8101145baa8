import DialogScript.Proofs.Script.Parallel
import DialogScript.Proofs.Token.Order
import DialogScript.Proofs.Token.Returns

/-!
# Sources with carriage returns

A source whose lines end in a carriage return and a line feed is read as the source whose lines end
in a line feed. Where a token takes a carriage return along, it is trimmed off, or the token carries
no meaning; only a text identifier keeps it, but that is the last token on its line, where no text
of a choice may stand.

Texts and conditions that go over several lines are left out: they hold their line feeds as they
stand, and so the carriage returns before them. So are sources with as many line feeds as there are
numbers of lines, since what stands behind a text identifier on the line with the largest number
counts as standing on its line.

## Main definitions

* `Comparison.returned`: a source is compared to the same with carriage returns
* `Error.withReturn`: an error with a carriage return behind the line that it quotes

## Main results

* `parallel_lexed_withReturns`: the lexemes of a source with carriage returns
* `Script.read_withReturns`: a source with carriage returns is read as without them
* `Script.read_withReturns_onLastLine`, `Script.not_read_withReturns`: text identifiers on the line
  with the largest number
-/

namespace DialogScript

/-- A source is compared to the same source with carriage returns. -/
def Comparison.returned (source : List Char) : Comparison where
  place o o' := ∃ before behind, source = before ++ behind ∧ o = utf8Length before ∧
    o' = utf8Length (withReturns before)
  exact := True
  shared _ := True

open Comparison (returned)

variable {source : List Char}

/-! ### Lexemes with carriage returns -/

/-- A carriage return at the end of a line stands in a gap. -/
theorem lexed_return (o n : Nat) (rest : List Char) :
    lexed o n ('\r' :: '\n' :: rest) = lexed (o + utf8Length ['\r']) n ('\n' :: rest) :=
  lexed_of_trivia (@Piece.scan?_gap '\r' [] _ rfl (fun _ hd => absurd hd List.not_mem_nil)
    (stops_cons rfl rest)) rfl

theorem lexed_withReturns_replicate (k o n : Nat) (cs : List Char) :
    lexed o n (withReturns (List.replicate k '\n') ++ cs) = lexed (o + 2 * k) (n + k) cs := by
  induction k generalizing o n with
  | zero => rfl
  | succ k ih =>
      have hsizes : utf8Length ['\r'] = 1 ∧ utf8Length ['\n'] = 1 := ⟨rfl, rfl⟩
      have ho : o + 1 + 1 + 2 * k = o + 2 * (k + 1) := by omega
      have hn : n + 1 + k = n + (k + 1) := by omega
      rw [List.replicate_succ, withReturns_feed, List.cons_append, List.cons_append, lexed_return,
        lexed_feed, ih, hsizes.1, hsizes.2, ho, hn]

/-- What follows a line feed stands on a later line, as long as numbers of lines grow. -/
theorem line_ne_of_mem_lexed_feed {o n : Nat} {rest : List Char} {k : Lexeme}
    (hn : n + 1 < 4294967295) (hk : k ∈ lexed o n ('\n' :: rest)) :
    k.line ≠ saturated (1 + n) := by
  rw [lexed_feed] at hk
  have hline := le_line_of_mem_lexemesFrom (List.mem_of_mem_filter hk)
  rw [ne_eq, ← UInt32.toNat_inj, toNat_saturated]
  omega

/-- The carriage return that code takes along is trimmed off. -/
theorem Lexeme.gist_concat_return {l : Lexeme} {rest : List Char}
    (hrule : Piece.Lexical l.kind l.text rest) (hkind : l.kind.takesReturn = true)
    (hmeant : l.kind.isTrivia = false) (hid : l.kind ≠ .textId) (o : Nat) :
    Lexeme.gist ⟨l.kind, l.text ++ ['\r'], o, l.line⟩ = l.gist := by
  obtain ⟨kind, text, start, line⟩ := l
  dsimp only at hrule hkind hmeant hid ⊢
  cases kind with
  | code =>
      cases hrule with
      | formed htext =>
          cases htext with
          | @code body => exact trimEnd_concat rfl body
  | waitWhile =>
      cases hrule with
      | formed htext =>
          cases htext with
          | @waitWhile body =>
              rw [gist, gist, List.append_assoc, List.drop_left, List.drop_left]
              exact trim_concat rfl body
  | textId => exact absurd rfl hid
  | whitespace | comment => cases hmeant
  | _ => cases hkind

/-- The lexemes of a source correspond to those of the source with carriage returns. -/
theorem parallel_lexed_withReturns {cs : List Char} {before : List Char} {n : Nat}
    (hsource : source = before ++ cs) (hlines : n + cs.count '\n' < 4294967295)
    (hcs : ∀ l ∈ lexemesFrom (utf8Length before) n (Piece.all cs),
      l.kind = .string ∨ l.kind = .condition → '\n' ∉ l.text) :
    (returned source).Parallel (lexed (utf8Length before) n cs)
      (lexed (utf8Length (withReturns before)) n (withReturns cs)) := by
  revert before n
  refine Piece.all_induct (motive := fun cs ps => ∀ {before : List Char} {n : Nat},
    source = before ++ cs → n + cs.count '\n' < 4294967295 →
      (∀ l ∈ lexemesFrom (utf8Length before) n ps,
        l.kind = .string ∨ l.kind = .condition → '\n' ∉ l.text) →
      (returned source).Parallel (lexed (utf8Length before) n cs)
        (lexed (utf8Length (withReturns before)) n (withReturns cs))) ?_ ?_ cs
  · intro cs hscan before n hsource hlines hcs
    have hscan' : Piece.scan? (withReturns cs) = none := by
      rw [Piece.scan?_eq_none_iff] at hscan ⊢
      exact hscan.imp (congrArg withReturns)
        fun hnul => (head?_withReturns (by rw [hnul]; decide)).trans hnul
    rw [lexed_of_none hscan, lexed_of_none hscan']
    exact .ended (fun _ => rfl) fun k hk => absurd hk List.not_mem_nil
  · intro cs p rest hscan ih before n hsource hlines hcs
    obtain ⟨rfl, hrule⟩ := Piece.scan?_eq_some_iff.mp hscan
    obtain ⟨hfirst, hbehind⟩ := List.forall_mem_cons.mp hcs
    have hsource' : source = before ++ p.text ++ rest := by rw [hsource, List.append_assoc]
    have hplace : (returned source).place (utf8Length before) (utf8Length (withReturns before)) :=
      ⟨before, p.text ++ rest, hsource, rfl, rfl⟩
    rw [List.count_append, ← Nat.add_assoc] at hlines
    rw [← utf8Length_append] at hbehind
    have hrest := ih hsource' hlines hbehind
    rw [withReturns_append, utf8Length_append before, utf8Length_append (withReturns before)]
      at hrest
    by_cases hkind : p.kind = .newLine
    · obtain ⟨kind, text⟩ := p
      subst hkind
      obtain rfl := hrule.text_newLine
      rw [List.singleton_append, withReturns_feed, lexed_return, lexed_feed, lexed_feed]
      exact hrest
    · have hfeed : '\n' ∉ p.text := fun hfeed =>
        hfirst ((hrule.kind_of_feed hfeed).resolve_left hkind) hfeed
      rw [withReturns_of_not_mem hfeed] at hrest
      rcases Piece.scan?_withReturns hscan hfeed with hscan' | ⟨hreturn, after, rfl, hscan'⟩
      · exact .of_scan? hscan hscan' rfl (fun _ => ⟨rfl, rfl, hplace, fun _ => rfl, fun _ _ => rfl⟩)
          (fun _ _ => .inl rfl) hrest
      · rw [withReturns_feed, lexed_return, Nat.add_assoc] at hrest
        refine .of_scan? hscan hscan' rfl (fun hmeant => ⟨rfl, rfl, hplace, ?_, fun _ => ?_⟩)
          (fun _ hid => .inr ?_) ?_
        · rintro (h | h) <;> dsimp only at h <;> rw [h] at hreturn <;> cases hreturn
        · exact fun hid => Lexeme.gist_concat_return (l := ⟨p.kind, p.text, _, _⟩) hrule
            hreturn hmeant hid _
        · intro next hnext
          rw [List.count_eq_zero.mpr hfeed] at hnext hlines
          rw [List.count_cons_self] at hlines
          exact line_ne_of_mem_lexed_feed (by omega) (List.mem_of_mem_head? hnext)
        · dsimp only
          rw [utf8Length_append, List.count_append]
          exact hrest

/-! ### Errors -/

/-- The cause with a carriage return behind the line that it quotes. -/
def ErrorKind.withReturn : ErrorKind → ErrorKind
  | malformed message line column text => .malformed message line column (text.push '\r')
  | kind => kind

/-- The error with a carriage return behind the line that it quotes. -/
def Error.withReturn (e : Error) : Error := { e with kind := e.kind.withReturn }

/-- The same fault is told in the same words, but for a carriage return at the end of its line. -/
theorem Fault.error_withReturns {f g : Fault} (hsame : (returned source).SameFault f g) :
    g.error (withReturns source) = f.error source ∨
      g.error (withReturns source) = (f.error source).withReturn := by
  cases hsame with
  | @unmet e l k hlk =>
      obtain ⟨before, behind, rfl, hstart, hstart'⟩ := hlk.place
      rw [Fault.error, Fault.error, hlk.line, hstart, hstart', withReturns_append,
        columnAt?_append_utf8Length, columnAt?_append_utf8Length, lineTextAt_append_utf8Length,
        lineTextAt_append_utf8Length, lastLine_withReturns]
      rcases firstLine_withReturns behind with hline | hline
      · rw [hline]
        exact .inl rfl
      · rw [hline, ← List.append_assoc, String.ofList_append]
        exact .inr rfl
  | unknownWord hlk htext =>
      rw [Fault.error, Fault.error, hlk.line, Lexeme.string, htext, Lexeme.string]
      exact .inl rfl

namespace Script

/-- A source with carriage returns before its line feeds is read as the source without them: as the
same script, or with the same error in the same place, which at most quotes the carriage return at
the end of its line. Texts and conditions have to stay on their lines, and the source to have fewer
line feeds than there are numbers of lines. -/
theorem read_withReturns {s : String}
    (hs : ∀ l ∈ lexemes s.toList, l.kind = .string ∨ l.kind = .condition → '\n' ∉ l.text)
    (hlines : s.toList.count '\n' < 4294967295) :
    (∀ u, Script.read s = .ok u →
      Script.read (String.ofList (withReturns s.toList)) = .ok u) ∧
    (∀ e, Script.read s = .error e →
      ∃ e', Script.read (String.ofList (withReturns s.toList)) = .error e' ∧
        (e' = e ∨ e' = e.withReturn)) := by
  have hparallel : (returned s.toList).Parallel (significant s.toList)
      (significant (withReturns s.toList)) :=
    @parallel_lexed_withReturns s.toList s.toList [] 0 rfl (by rwa [Nat.zero_add]) hs
  simp only [Script.read, readChars, String.toList_ofList]
  refine ⟨fun u hread => ?_, fun e hread => ?_⟩
  · split at hread
    · rename_i clauses hclauses
      obtain rfl := Except.ok.inj hread
      obtain ⟨clauses', hclauses', hkept⟩ :=
        Clause.all_ok_of_parallel trivial hparallel (fun _ _ => trivial) hclauses
      rw [hclauses']
      dsimp only
      rw [ofClauses, ← gather_filterMap_kept?, hkept, gather_filterMap_kept?, ofClauses]
    · cases hread
  · split at hread
    · cases hread
    · rename_i failure hfailure
      obtain rfl := Except.error.inj hread
      have hsorted := (pairwise_before_significant s.toList).imp fun hlk => hlk.line_le
      obtain ⟨f, hf, hsame⟩ :=
        Clause.all_error_of_parallel hparallel hsorted hfailure fun _ _ _ => trivial
      rw [hf]
      exact ⟨_, rfl, Fault.error_withReturns hsame⟩

/-- A comment, code and text identifiers take carriage returns along, and a text identifier at the
end of its line lacks its arrow with and without one. -/
theorem read_withReturns_of_code :
    let s := "x # y\n:a\n!c [ \nwaitwhile\n$t\n1 $t -> a [once]\n"
    let u : Script := ⟨[⟨"a", [⟨.code "c [", []⟩, ⟨.waitWhile "", []⟩,
      ⟨.choice 1 "$t" "a", [⟨.scope .once, 6⟩]⟩]⟩]⟩
    let s' := ":a\n1 $t\n-> a"
    let e : Error := { kind := .malformed "expected '->'" 2 1 "1 $t" }
    (∀ l ∈ lexemes s.toList, l.kind = .string ∨ l.kind = .condition → '\n' ∉ l.text) ∧
      s.toList.count '\n' < 4294967295 ∧
      Script.read s = .ok u ∧ Script.read (String.ofList (withReturns s.toList)) = .ok u ∧
      (∀ l ∈ lexemes s'.toList, l.kind = .string ∨ l.kind = .condition → '\n' ∉ l.text) ∧
      s'.toList.count '\n' < 4294967295 ∧
      Script.read s' = .error e ∧
      ∃ e', Script.read (String.ofList (withReturns s'.toList)) = .error e' ∧
        (e' = e ∨ e' = e.withReturn) := by
  intro s u s' e
  have hs : ∀ l ∈ lexemes s.toList, l.kind = .string ∨ l.kind = .condition → '\n' ∉ l.text := by
    decide +kernel
  have hlines : s.toList.count '\n' < 4294967295 := by decide +kernel
  have hs' : ∀ l ∈ lexemes s'.toList, l.kind = .string ∨ l.kind = .condition → '\n' ∉ l.text := by
    decide +kernel
  have hlines' : s'.toList.count '\n' < 4294967295 := by decide +kernel
  have hu : Script.read s = .ok u := by decide +kernel
  have he : Script.read s' = .error e := by decide +kernel
  exact ⟨hs, hlines, hu, (read_withReturns hs hlines).1 u hu, hs', hlines', he,
    (read_withReturns hs' hlines').2 e he⟩

/-- On the line with the largest number a text identifier at the end of its line may be the text of
a choice, with the carriage return. -/
theorem read_withReturns_onLastLine {n : Nat} (hn : 4294967294 ≤ n) :
    readChars (List.replicate n '\n' ++ ":a 1 $x\n-> b".toList) =
        .ok ⟨[⟨"a", [⟨.choice 1 "$x" "b", []⟩]⟩]⟩ ∧
      readChars (withReturns (List.replicate n '\n' ++ ":a 1 $x\n-> b".toList)) =
        .ok ⟨[⟨"a", [⟨.choice 1 "$x\r" "b", []⟩]⟩]⟩ := by
  have hs : significant ":a 1 $x\n-> b".toList =
      [⟨.colon, [':'], 0, 1⟩, ⟨.word, ['a'], 1, 1⟩, ⟨.number, ['1'], 3, 1⟩,
        ⟨.textId, ['$', 'x'], 5, 1⟩, ⟨.arrow, ['-', '>'], 8, 2⟩, ⟨.word, ['b'], 11, 2⟩] := by
    decide +kernel
  have ht : significant (withReturns ":a 1 $x\n-> b".toList) =
      [⟨.colon, [':'], 0, 1⟩, ⟨.word, ['a'], 1, 1⟩, ⟨.number, ['1'], 3, 1⟩,
        ⟨.textId, ['$', 'x', '\r'], 5, 1⟩, ⟨.arrow, ['-', '>'], 9, 2⟩,
        ⟨.word, ['b'], 12, 2⟩] := by
    decide +kernel
  have hreturns : significant (withReturns (List.replicate n '\n' ++ ":a 1 $x\n-> b".toList)) =
      (significant (withReturns ":a 1 $x\n-> b".toList)).map (Lexeme.onLastLine (2 * n)) := by
    rw [withReturns_append, significant_eq, lexed_withReturns_replicate, Nat.zero_add,
      Nat.zero_add, lexed_onLastLine hn]
  rw [readChars, readChars, significant_onLastLine hn, hreturns, hs, ht]
  exact ⟨rfl, rfl⟩

/-- In a source with one line feed for each number of a line, a carriage return becomes part of the
text of a choice. -/
theorem not_read_withReturns :
    let s := String.ofList (List.replicate 4294967294 '\n' ++ ":a 1 $x\n-> b".toList)
    (∀ l ∈ lexemes s.toList, l.kind = .string ∨ l.kind = .condition → '\n' ∉ l.text) ∧
      s.toList.count '\n' = 4294967295 ∧
      Script.read s = .ok ⟨[⟨"a", [⟨.choice 1 "$x" "b", []⟩]⟩]⟩ ∧
      Script.read (String.ofList (withReturns s.toList)) =
        .ok ⟨[⟨"a", [⟨.choice 1 "$x\r" "b", []⟩]⟩]⟩ := by
  intro s
  obtain ⟨hread, hreturns⟩ := read_withReturns_onLastLine (Nat.le_refl _)
  refine ⟨fun l hl hkind => ?_, ?_, ?_, ?_⟩
  · rw [String.toList_ofList] at hl
    -- Strings and conditions are significant, and the significant lexemes are those of the end.
    have hmeant : l ∈ significant (List.replicate 4294967294 '\n' ++ ":a 1 $x\n-> b".toList) :=
      List.mem_filter.mpr ⟨hl, by rcases hkind with hkind | hkind <;> rw [hkind] <;> rfl⟩
    rw [significant_onLastLine (Nat.le_refl _)] at hmeant
    obtain ⟨k, hk, rfl⟩ := List.mem_map.mp hmeant
    have hnone : ∀ k ∈ significant ":a 1 $x\n-> b".toList, '\n' ∉ k.text := by decide +kernel
    exact hnone k hk
  · rw [String.toList_ofList, List.count_append, List.count_replicate_self]
    rfl
  · rw [read_ofList]
    exact hread
  · rw [read_ofList, String.toList_ofList]
    exact hreturns

end Script

end DialogScript
