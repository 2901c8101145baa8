import DialogScript.Proofs.Text.Line
import DialogScript.Proofs.Token.Grammar

/-!
# Lexemes of joined sources

A rule of the lexical grammar looks at what stands behind a token, but never past the next line
feed. So if the tokens of a source cover it and the last one is a line feed, they remain what they
are whatever source is put behind, and the lexemes of that source follow, further on.

## Main definitions

* `WholeLines`: the tokens of a source cover it, and the last one ends a line
* `Lexeme.behind`: a lexeme behind a text

## Main results

* `Piece.Lexical.append`: more text behind the next line feed changes no token before it
* `significant_append`: the lexemes of joined sources
-/

namespace DialogScript

namespace Piece

variable {kind : TokenKind} {text rest : List Char}

/-! ### One piece -/

theorem head?_append_of_feed (hrest : rest.getLast? = some '\n') (more : List Char) :
    (rest ++ more).head? = rest.head? := by
  cases rest with
  | nil => cases hrest
  | cons c cs => rfl

theorem stops_append {p : Char → Bool} (hrest : rest.getLast? = some '\n') (hstops : Stops p rest)
    (more : List Char) : Stops p (rest ++ more) := by
  rw [Stops, head?_append_of_feed hrest]
  exact hstops

theorem EndsRun.append {spaced : Prop} (hrest : rest.getLast? = some '\n')
    (hended : EndsRun spaced rest) (more : List Char) : EndsRun spaced (rest ++ more) := by
  have hhead := head?_append_of_feed hrest more
  rcases hended with rfl | hfeed | hnul | ⟨hspaced, after, rfl, hafter⟩
  · cases hrest
  · exact .inr (.inl (hhead.trans hfeed))
  · exact .inr (.inr (.inl (hhead.trans hnul)))
  · refine .inr (.inr (.inr ⟨hspaced, after ++ more, rfl, ?_⟩))
    -- The bracket is not the line feed, so the character behind it stands before that too.
    cases after with
    | nil => exact absurd (Option.some.inj hrest) (by decide)
    | cons c cs => exact hafter

theorem Enclosed.append {opening closing : Char} (hrest : rest.getLast? = some '\n')
    (htext : Enclosed opening closing text rest) (more : List Char) :
    Enclosed opening closing text (rest ++ more) := by
  obtain ⟨body, hbody, hclosed | ⟨-, rfl⟩⟩ := htext
  · exact ⟨body, hbody, .inl hclosed⟩
  · cases hrest

theorem codeBody_append {body : List Char} (hrest : rest.getLast? = some '\n')
    (hbody : CodeBody body rest) (more : List Char) : CodeBody body (rest ++ more) :=
  ⟨hbody.line, hbody.brackets, hbody.ended.append hrest more⟩

theorem Formed.append (hrest : rest.getLast? = some '\n') (htext : Formed kind text rest)
    (more : List Char) : Formed kind text (rest ++ more) := by
  cases htext with
  | newLine => exact .newLine
  | whitespace hc hgap hstops => exact .whitespace hc hgap (stops_append hrest hstops more)
  | colon => exact .colon
  | arrow => exact .arrow
  | word htext hstops => exact .word htext (stops_append hrest hstops more)
  | number hwhole hfraction hbegin hdigit hpoint harrow =>
      refine .number hwhole hfraction hbegin (stops_append hrest hdigit more) ?_ ?_
      · intro hnone d after hcons
        -- The point is not the line feed, so what follows it stands before that too.
        obtain ⟨c, cs, rfl⟩ := List.exists_cons_of_ne_nil
          (l := rest) (by rintro rfl; cases hrest)
        obtain ⟨rfl, htail⟩ := List.cons.inj hcons
        cases cs with
        | nil => exact absurd (Option.some.inj hrest) (by decide)
        | cons e es =>
            obtain ⟨rfl, -⟩ := List.cons.inj htail
            exact hpoint hnone e es rfl
      · intro hwhole hnone
        rw [head?_append_of_feed hrest]
        exact harrow hwhole hnone
  | string htext => exact .string (htext.append hrest more)
  | condition htext => exact .condition (htext.append hrest more)
  | comment hc hbody hstops => exact .comment hc hbody (stops_append hrest hstops more)
  | textId hid hstops => exact .textId hid (stops_append hrest hstops more)
  | code hbody => exact .code (codeBody_append hrest hbody more)
  | waitWhile hbody hword => exact .waitWhile (codeBody_append hrest hbody more) hword

/-- What the rule of a kind allows before a line feed it allows if more text follows behind. -/
theorem Lexical.append (hrest : rest.getLast? = some '\n') (htext : Lexical kind text rest)
    (more : List Char) : Lexical kind text (rest ++ more) := by
  cases htext with
  | formed htext => exact .formed (htext.append hrest more)
  | unknown hc hother => exact .unknown hc hother

/-- A text that is not closed goes on in more text behind it. -/
theorem Enclosed.goes_on {opening closing : Char} (htext : Enclosed opening closing text [])
    (hopen : text.getLast? ≠ some closing) (more : List Char) :
    Enclosed opening closing (text ++ (through closing more).1) (through closing more).2 := by
  obtain ⟨body, hbody, rfl | ⟨rfl, -⟩⟩ := htext
  · rw [← List.cons_append, List.getLast?_concat] at hopen
    exact absurd rfl hopen
  · have hthrough := enclosed_through opening closing (body ++ more)
    rwa [through_append_of_not_mem hbody] at hthrough

/-- A token other than a line feed that ends a source with a line feed is not closed. It goes on in
more text behind it. -/
theorem Lexical.goes_on (htext : Lexical kind text []) (hend : text.getLast? = some '\n')
    (hkind : kind ≠ .newLine) (more : List Char) : (kind = .string ∨ kind = .condition) ∧
      ∃ taken rest, more = taken ++ rest ∧ Lexical kind (text ++ taken) rest := by
  have hkinds := (htext.kind_of_feed (List.mem_of_getLast? hend)).resolve_left hkind
  refine ⟨hkinds, ?_⟩
  cases htext with
  | unknown => rcases hkinds with hkind | hkind <;> cases hkind
  | formed htext =>
      have hopen {c : Char} (hc : c ≠ '\n') : text.getLast? ≠ some c :=
        fun hlast => hc (Option.some.inj (hlast.symm.trans hend))
      rcases hkinds with rfl | rfl
      · cases htext with
        | string htext =>
            exact ⟨_, _, (through_append '"' more).symm,
              .formed (.string (htext.goes_on (hopen (by decide)) more))⟩
      · cases htext with
        | condition htext =>
            exact ⟨_, _, (through_append ']' more).symm,
              .formed (.condition (htext.goes_on (hopen (by decide)) more))⟩

theorem Lexical.text_newLine (htext : Lexical .newLine text rest) : text = ['\n'] := by
  cases htext with
  | formed htext =>
      cases htext
      rfl

/-! ### All pieces -/

theorem text_newLine_of_mem_all {cs : List Char} {p : Piece} (hp : p ∈ all cs)
    (hkind : p.kind = .newLine) : p.text = ['\n'] := by
  refine of_mem_all (P := fun p => p.kind = .newLine → p.text = ['\n']) ?_ hp hkind
  intro cs p rest hscan hkind
  have hrule := (scan?_eq_some_iff.mp hscan).2
  rw [hkind] at hrule
  exact hrule.text_newLine

/-- The pieces make up the source, and the last of them is a line feed, if there are any. -/
structure CoverLines (cs : List Char) (ps : List Piece) : Prop where
  cover : ps.flatMap Piece.text = cs
  last : ∀ p ∈ ps.getLast?, p.kind = .newLine

theorem CoverLines.endsLine {cs : List Char} (hcs : CoverLines cs (all cs)) : EndsLine cs := by
  obtain ⟨hcover, hlast⟩ := hcs
  rcases List.eq_nil_or_concat (all cs) with hnil | ⟨init, p, hconcat⟩
  · rw [← hcover, hnil]
    intro c hc
    cases hc
  · have hp : p ∈ all cs := hconcat ▸ by simp
    have htext := text_newLine_of_mem_all hp (hlast p (by simp [hconcat]))
    rw [← hcover, hconcat]
    intro c hc
    simpa [htext, eq_comm] using hc

theorem CoverLines.tail {p : Piece} {rest : List Char}
    (hcs : CoverLines (p.text ++ rest) (p :: all rest)) : CoverLines rest (all rest) := by
  refine ⟨List.append_cancel_left (List.flatMap_cons.symm.trans hcs.cover), fun q hq => ?_⟩
  obtain ⟨init, hinit⟩ := List.getLast?_eq_some_iff.mp (Option.mem_def.mp hq)
  refine hcs.last q ?_
  rw [hinit, ← List.cons_append, List.getLast?_concat]
  exact rfl

/-- The pieces of whole lines and of what stands behind them are the pieces of both. -/
theorem all_append {cs : List Char} (hcs : CoverLines cs (all cs)) (more : List Char) :
    all (cs ++ more) = all cs ++ all more := by
  revert hcs
  refine all_induct (motive := fun cs ps => CoverLines cs ps →
    all (cs ++ more) = ps ++ all more) ?_ ?_ cs
  · rintro cs - ⟨rfl, -⟩
    rfl
  · intro cs p rest hscan ih hcs
    obtain ⟨rfl, hrule⟩ := scan?_eq_some_iff.mp hscan
    have hscan' : scan? (p.text ++ (rest ++ more)) = some (p, rest ++ more) := by
      refine scan?_eq_some_iff.mpr ⟨rfl, ?_⟩
      rcases hend : rest.getLast? with - | c
      · -- The piece is the last one, a line feed, which is one before any text.
        obtain rfl := List.getLast?_eq_none_iff.mp hend
        have hkind : p.kind = .newLine := hcs.last p rfl
        rw [hkind] at hrule ⊢
        rw [hrule.text_newLine]
        exact .formed .newLine
      · obtain rfl : c = '\n' := hcs.tail.endsLine c hend
        exact hrule.append hend more
    rw [List.append_assoc, all_of_some hscan', ih hcs.tail, List.cons_append]

end Piece

/-! ### All lexemes -/

/-- The tokens of a source cover it, and the last one is a line feed, or there are none. -/
def WholeLines (source : List Char) : Prop :=
  source = [] ∨ ∃ before feed, feed.kind = .newLine ∧
    tokens source = before ++ [feed, .endAt (utf8Length source)]

theorem map_kind_lexemesFrom (o n : Nat) (ps : List Piece) :
    ((lexemesFrom o n ps).map Lexeme.token).map Token.kind = ps.map Piece.kind := by
  induction ps generalizing o n with
  | nil => rfl
  | cons p ps ih => exact congrArg (p.kind :: ·) (ih _ _)

theorem WholeLines.coverLines {source : List Char} (hsource : WholeLines source) :
    Piece.CoverLines source (Piece.all source) := by
  rcases hsource with rfl | ⟨before, feed, hkind, htokens⟩
  · exact ⟨rfl, fun p hp => by cases hp⟩
  · rw [tokens, List.append_cons before] at htokens
    obtain ⟨hlexemes, hend⟩ := List.append_inj' htokens rfl
    have hoffset : endOffset source = utf8Length source :=
      congrArg (·.span.start) (List.singleton_inj.mp hend)
    have hkinds := congrArg (fun ts => (ts.map Token.kind).getLast?) hlexemes
    rw [lexemes, map_kind_lexemesFrom, List.map_append, List.map_singleton, List.getLast?_concat,
      hkind, List.getLast?_map] at hkinds
    refine ⟨?_, fun p hp => ?_⟩
    · have hall := upTo_append_utf8Length source []
      rw [List.append_nil] at hall
      rw [← upTo_endOffset, hoffset, hall]
    · rw [Option.mem_def.mp hp] at hkinds
      exact Option.some.inj hkinds

/-- A lexeme behind a text. -/
def Lexeme.behind (cs : List Char) (l : Lexeme) : Lexeme :=
  { l with start := utf8Length cs + l.start, line := later (cs.count '\n') l.line }

theorem lexemesFrom_append (o n : Nat) (ps qs : List Piece) :
    lexemesFrom o n (ps ++ qs) = lexemesFrom o n ps ++
      lexemesFrom (o + utf8Length (ps.flatMap Piece.text))
        (n + (ps.flatMap Piece.text).count '\n') qs := by
  induction ps generalizing o n with
  | nil => rfl
  | cons p ps ih =>
      rw [List.cons_append, lexemesFrom, lexemesFrom, ih, List.flatMap_cons, utf8Length_append,
        List.count_append, Nat.add_assoc, Nat.add_assoc, List.cons_append]

theorem lexemesFrom_behind (cs : List Char) (o n : Nat) (ps : List Piece) :
    lexemesFrom (utf8Length cs + o) (cs.count '\n' + n) ps =
      (lexemesFrom o n ps).map (Lexeme.behind cs) := by
  induction ps generalizing o n with
  | nil => rfl
  | cons p ps ih =>
      have hline : later (cs.count '\n') (saturated (1 + n)) =
          saturated (1 + (cs.count '\n' + n)) := by
        rw [later_saturated, Nat.add_assoc, Nat.add_comm n]
      rw [lexemesFrom, lexemesFrom, List.map_cons, Nat.add_assoc, Nat.add_assoc, ih, Lexeme.behind,
        hline]

/-- The lexemes of joined sources are those of both, the second ones behind the first source. -/
theorem significant_append {source : List Char} (hsource : WholeLines source) (more : List Char) :
    significant (source ++ more) =
      significant source ++ (significant more).map (Lexeme.behind source) := by
  have hcs := hsource.coverLines
  have hlexemes : lexemes (source ++ more) =
      lexemes source ++ (lexemes more).map (Lexeme.behind source) := by
    rw [lexemes, Piece.all_append hcs, lexemesFrom_append, hcs.cover]
    exact congrArg _ (lexemesFrom_behind source 0 0 _ ▸ by simp)
  rw [significant, hlexemes, List.filter_append, List.filter_map]
  rfl

/-! ### Lines of lexemes -/

theorem exists_eq_of_mem_lexemesFrom {l : Lexeme} {o n : Nat} {ps : List Piece}
    (hl : l ∈ lexemesFrom o n ps) : ∃ before p after, ps = before ++ p :: after ∧
      l = ⟨p.kind, p.text, o + utf8Length (before.flatMap Piece.text),
        saturated (1 + (n + (before.flatMap Piece.text).count '\n'))⟩ := by
  induction ps generalizing o n with
  | nil => cases hl
  | cons p ps ih =>
      rcases List.mem_cons.mp hl with rfl | hl
      · exact ⟨[], p, ps, rfl, rfl⟩
      · obtain ⟨before, q, after, rfl, rfl⟩ := ih hl
        refine ⟨p :: before, q, after, rfl, ?_⟩
        rw [List.flatMap_cons, List.count_append, utf8Length_append, Nat.add_assoc, Nat.add_assoc]

section Lines

variable {source : List Char} {l : Lexeme}

/-- A lexeme is a part of its source, on the line that the line feeds before it lead to. -/
theorem Lexeme.exists_eq_of_mem (hl : l ∈ lexemes source) :
    ∃ before after, source = before ++ (l.text ++ after) ∧ l.start = utf8Length before ∧
      l.line = saturated (1 + before.count '\n') := by
  obtain ⟨before, p, after, hall, rfl⟩ := exists_eq_of_mem_lexemesFrom hl
  obtain ⟨rest, hsource, -⟩ := Piece.exists_eq_append_all source
  refine ⟨before.flatMap Piece.text, after.flatMap Piece.text ++ rest, ?_, Nat.zero_add _, ?_⟩
  · rw [hsource, hall, List.flatMap_append, List.flatMap_cons, List.append_assoc,
      List.append_assoc]
  · dsimp only
    rw [Nat.zero_add]

theorem Lexeme.text_ne_nil_of_mem (hl : l ∈ lexemes source) : l.text ≠ [] := by
  obtain ⟨before, p, after, hall, rfl⟩ := exists_eq_of_mem_lexemesFrom hl
  exact (Piece.other_of_mem_all (hall ▸ by simp : p ∈ Piece.all source)).2

/-- The line of a lexeme of whole lines ends behind it. -/
theorem Lexeme.exists_feed_of_mem (hsource : EndsLine source) (hl : l ∈ lexemes source) :
    ∃ before behind, source = before ++ behind ∧ '\n' ∈ behind ∧ l.start = utf8Length before ∧
      l.line = saturated (1 + before.count '\n') := by
  obtain ⟨before, after, rfl, hstart, hline⟩ := Lexeme.exists_eq_of_mem hl
  have hne : l.text ++ after ≠ [] :=
    fun hnil => Lexeme.text_ne_nil_of_mem hl (List.append_eq_nil_iff.mp hnil).1
  exact ⟨before, l.text ++ after, rfl,
    List.mem_of_getLast? (hsource.of_append.getLast?_eq hne), hstart, hline⟩

theorem EndsLine.line_le (hsource : EndsLine source) (hl : l ∈ lexemes source) :
    l.line.toNat ≤ source.count '\n' := by
  obtain ⟨before, behind, rfl, hfeed, -, hline⟩ := Lexeme.exists_feed_of_mem hsource hl
  have hcount := List.count_pos_iff.mpr hfeed
  rw [hline, toNat_saturated, List.count_append]
  omega

/-- A line has a number, and no larger one than there are lines. -/
theorem line_of_mem_significant (hl : l ∈ significant source) :
    1 ≤ l.line.toNat ∧ l.line.toNat ≤ source.count '\n' + 1 := by
  obtain ⟨before, after, rfl, -, hline⟩ := Lexeme.exists_eq_of_mem (List.mem_of_mem_filter hl)
  rw [hline, toNat_saturated, List.count_append]
  omega

/-- In whole lines, every line of a lexeme ends. -/
theorem WholeLines.line_le (hsource : WholeLines source) (hl : l ∈ significant source) :
    l.line.toNat ≤ source.count '\n' :=
  hsource.coverLines.endsLine.line_le (List.mem_of_mem_filter hl)

end Lines

end DialogScript
