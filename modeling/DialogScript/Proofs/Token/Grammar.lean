import DialogScript.Proofs.Token.CodeRun
import DialogScript.Proofs.Token.Lexing
import DialogScript.Proofs.Token.Tiling

/-!
# The lexical grammar

Each kind of token has a rule for its text and for what may stand behind it. The scanner takes a
piece off a source exactly if the rule of its kind allows the piece there. Since it takes off no
more than one piece, no source has two tilings by the rules, and the tokens of a source are the
one it has.

## Main definitions

* `Piece.Formed`: the rules of the kinds that begin with characters of their own
* `Piece.Lexical`: the rules of all kinds but the end of input

## Main results

* `Piece.scan?_eq_some_iff`: a piece is taken off a source exactly if a rule allows it
* `eq_tokens_iff`: the tokens of a source are its only tiling by the rules
-/

namespace DialogScript

namespace Piece

/-- The text goes from an opening delimiter to the first closing one behind it, or to the end of the
source if there is none. -/
def Enclosed (opening closing : Char) (text rest : List Char) : Prop :=
  ∃ body, closing ∉ body ∧
    (text = opening :: (body ++ [closing]) ∨ text = opening :: body ∧ rest = [])

/-- The texts of the kinds that begin with characters of their own, with `rest` behind them. -/
inductive Formed : TokenKind → List Char → List Char → Prop
  | newLine {rest} : Formed .newLine ['\n'] rest
  | whitespace {c gap rest} (hc : isGap c = true) (hgap : ∀ d ∈ gap, isGap d = true)
      (hrest : Stops isGap rest) : Formed .whitespace (c :: gap) rest
  | colon {rest} : Formed .colon [':'] rest
  | arrow {rest} : Formed .arrow ['-', '>'] rest
  | word {text rest} (htext : IsWord text) (hrest : Stops isWordChar rest) :
      Formed .word text rest
  /-- A number begins with a minus or a digit. A point without a digit behind it is not part of a
  number, and a minus before an arrow head is none. -/
  | number {negative whole fraction rest} (hwhole : ∀ c ∈ whole, c.isDigit = true)
      (hfraction : ∀ c ∈ fraction, c.isDigit = true) (hbegin : negative = true ∨ whole ≠ [])
      (hdigit : Stops Char.isDigit rest)
      (hpoint : fraction = [] → ∀ d after, rest = '.' :: d :: after → d.isDigit = false)
      (harrow : whole = [] → fraction = [] → rest.head? ≠ some '>') :
      Formed .number (if negative then '-' :: Decimal.withPoint whole fraction
        else Decimal.withPoint whole fraction) rest
  | string {text rest} (htext : Enclosed '"' '"' text rest) : Formed .string text rest
  | condition {text rest} (htext : Enclosed '[' ']' text rest) : Formed .condition text rest
  | comment {c body rest} (hc : c = '#' ∨ c = ';') (hbody : '\n' ∉ body)
      (hrest : Stops (· ≠ '\n') rest) : Formed .comment (c :: body) rest
  | textId {id rest} (hid : ∀ c ∈ id, isTextIdChar c = true) (hrest : Stops isTextIdChar rest) :
      Formed .textId ('$' :: id) rest
  | code {body rest} (hbody : CodeBody body rest) : Formed .code ('!' :: body) rest
  | waitWhile {body rest} (hbody : CodeBody body rest) (hword : Stops isWordChar body) :
      Formed .waitWhile (waitWhileWord ++ body) rest

/-- The texts of all kinds but the end of input, with `rest` behind them. An unknown token is one
character that begins no token of another kind. -/
inductive Lexical : TokenKind → List Char → List Char → Prop
  | formed {kind text rest} (htext : Formed kind text rest) : Lexical kind text rest
  | unknown {c rest} (hc : c ≠ nul) (hother : ∀ kind tail after, ¬Formed kind (c :: tail) after) :
      Lexical .unknown [c] rest

/-! ### What the rules allow is taken off -/

theorem through_append_of_not_mem {closing : Char} {body : List Char} (hbody : closing ∉ body)
    (more : List Char) : through closing (body ++ more) =
      (body ++ (through closing more).1, (through closing more).2) := by
  induction body with
  | nil => rfl
  | cons c body ih =>
      rw [List.mem_cons, not_or] at hbody
      rw [List.cons_append, through, if_neg (Ne.symm hbody.1), ih hbody.2]
      rfl

theorem through_of_not_mem {closing : Char} {body : List Char} (hbody : closing ∉ body) :
    through closing body = (body, []) := by
  simpa only [through, List.append_nil] using through_append_of_not_mem hbody []

theorem Enclosed.exists_through {opening closing : Char} {text rest : List Char}
    (htext : Enclosed opening closing text rest) :
    ∃ inner, text = opening :: inner ∧ through closing (inner ++ rest) = (inner, rest) := by
  obtain ⟨body, hbody, rfl | ⟨rfl, rfl⟩⟩ := htext
  · refine ⟨_, rfl, ?_⟩
    rw [List.append_assoc]
    exact through_append_cons hbody rest
  · refine ⟨body, rfl, ?_⟩
    rw [List.append_nil]
    exact through_of_not_mem hbody

/-- A body of code that does not begin like a word does not go on like one. -/
theorem stops_append_of_codeBody {body rest : List Char} (hbody : CodeBody body rest)
    (hword : Stops isWordChar body) : Stops isWordChar (body ++ rest) := by
  cases body with
  | cons c cs => exact stops_cons (hword c rfl) _
  | nil =>
      intro c hc
      rcases hbody.ended with rfl | hfeed | hnul | ⟨hspace, -⟩
      · cases hc
      · obtain rfl := Option.some.inj (hc.symm.trans hfeed)
        rfl
      · obtain rfl := Option.some.inj (hc.symm.trans hnul)
        rfl
      · cases hspace

variable {kind : TokenKind} {text rest : List Char}

theorem Formed.scan?_eq (htext : Formed kind text rest) :
    scan? (text ++ rest) = some (⟨kind, text⟩, rest) := by
  cases htext with
  | newLine => rfl
  | whitespace hc hgap hrest => exact scan?_gap hc hgap hrest
  | colon => rfl
  | arrow => rfl
  | word htext hrest => exact scan?_word htext hrest
  | number hwhole hfraction hbegin hdigit hpoint harrow =>
      exact scan?_number hwhole hfraction hbegin hdigit hpoint harrow
  | string htext =>
      obtain ⟨inner, rfl, hthrough⟩ := htext.exists_through
      change some ((⟨.string, '"' :: (through '"' (inner ++ rest)).1⟩ : Piece),
        (through '"' (inner ++ rest)).2) = _
      rw [hthrough]
  | condition htext =>
      obtain ⟨inner, rfl, hthrough⟩ := htext.exists_through
      change some ((⟨.condition, '[' :: (through ']' (inner ++ rest)).1⟩ : Piece),
        (through ']' (inner ++ rest)).2) = _
      rw [hthrough]
  | @comment c body _ hc hbody hrest =>
      have hrun : run (· ≠ '\n') (body ++ rest) = (body, rest) := by
        refine run_append_of_stops (fun d hd => decide_eq_true ?_) hrest
        rintro rfl
        exact hbody hd
      have hscan : scan? (c :: (body ++ rest)) = some (⟨.comment, c :: (run (· ≠ '\n')
          (body ++ rest)).1⟩, (run (· ≠ '\n') (body ++ rest)).2) := by
        rcases hc with rfl | rfl <;> rfl
      exact hscan.trans (by rw [hrun])
  | textId hid hrest => exact scan?_textId hid hrest
  | @code body _ hbody =>
      change some ((⟨.code, '!' :: (codeRun false (body ++ rest)).1⟩ : Piece),
        (codeRun false (body ++ rest)).2) = _
      rw [hbody.codeRun_append]
  | waitWhile hbody hword =>
      rw [List.append_assoc, scan?_waitWhile (stops_append_of_codeBody hbody hword),
        hbody.codeRun_append]

/-! ### What is taken off is allowed by the rules -/

theorem stops_dropWhile (p : Char → Bool) (cs : List Char) : Stops p (cs.dropWhile p) := by
  intro c hc
  have hhead := List.head?_dropWhile_not p cs
  rw [hc] at hhead
  exact hhead

theorem enclosed_through (opening closing : Char) (cs : List Char) :
    Enclosed opening closing (opening :: (through closing cs).1) (through closing cs).2 := by
  obtain ⟨body, hbody, hopen | hclosed⟩ := through_eq closing cs
  · rw [hopen]
    exact ⟨body, hbody, .inr ⟨rfl, rfl⟩⟩
  · rw [hclosed]
    exact ⟨body, hbody, .inl rfl⟩

/-- The digits at the beginning of a text and those behind a point end where neither goes on. -/
theorem exists_digits_eq (cs : List Char) : ∃ fraction,
    (∀ c ∈ fraction, c.isDigit = true) ∧
      (digits cs).1 = Decimal.withPoint (cs.takeWhile Char.isDigit) fraction ∧
      Stops Char.isDigit (digits cs).2 ∧
      (fraction = [] → ∀ d after, (digits cs).2 = '.' :: d :: after → d.isDigit = false) := by
  rw [digits]
  split
  · rename_i d tail hdrop
    split
    · rename_i hd
      refine ⟨d :: tail.takeWhile Char.isDigit, ?_, rfl, stops_dropWhile _ _,
        fun hnone => absurd hnone (List.cons_ne_nil _ _)⟩
      intro c hc
      rcases List.mem_cons.mp hc with rfl | hc
      · exact hd
      · exact List.mem_takeWhile_imp hc
    · rename_i hd
      refine ⟨[], fun _ hc => absurd hc List.not_mem_nil, rfl, stops_cons (by decide) _, ?_⟩
      rintro - e after hcons
      obtain ⟨rfl, -⟩ := List.cons.inj (List.cons.inj hcons).2
      exact Bool.eq_false_iff.mpr hd
  · rename_i hdrop
    refine ⟨[], fun _ hc => absurd hc List.not_mem_nil, rfl, stops_dropWhile _ _, ?_⟩
    rintro - d after hcons
    exact absurd hcons (hdrop d after)

theorem formed_minus {cs : List Char} (hcs : cs.head? ≠ some '>') :
    Formed .number ('-' :: (digits cs).1) (digits cs).2 := by
  obtain ⟨fraction, hfraction, htext, hdigit, hpoint⟩ := exists_digits_eq cs
  have hparts := digits_append cs
  rw [htext] at hparts ⊢
  refine @Formed.number true _ fraction _ (fun c hc => List.mem_takeWhile_imp hc) hfraction
    (.inl rfl) hdigit hpoint fun hwhole hnone => ?_
  rw [hwhole, hnone] at hparts
  rw [← hparts] at hcs
  exact hcs

theorem formed_digit {c : Char} (hc : c.isDigit = true) (cs : List Char) :
    Formed .number (c :: (digits (c :: cs)).1.tail) (digits (c :: cs)).2 := by
  obtain ⟨fraction, hfraction, htext, hdigit, hpoint⟩ := exists_digits_eq (c :: cs)
  have hwhole : (c :: cs).takeWhile Char.isDigit ≠ [] := by
    rw [List.takeWhile_cons_of_pos hc]
    exact List.cons_ne_nil _ _
  rw [← digits_cons hc, htext]
  exact @Formed.number false _ fraction _ (fun c hc => List.mem_takeWhile_imp hc) hfraction
    (.inr hwhole) hdigit hpoint fun hnone => absurd hnone hwhole

theorem formed_alpha {c : Char} (hc : c.isAlpha = true) (cs : List Char) :
    Formed (scanFrom c cs).1 (c :: (scanFrom c cs).2.1) (scanFrom c cs).2.2 := by
  have hstops := stops_dropWhile isWordChar cs
  rw [scanFrom_alpha hc]
  split
  · rename_i hword
    have htext (body : List Char) :
        c :: (cs.takeWhile isWordChar ++ body) = waitWhileWord ++ body :=
      congrArg (· ++ body) hword
    dsimp only
    rw [htext]
    refine .waitWhile (codeBody_codeRun _) fun d hd => ?_
    refine hstops d ?_
    rw [← codeRun_append false (cs.dropWhile isWordChar), List.head?_append, hd]
    rfl
  · rename_i hword
    exact .word ⟨⟨c, _, rfl, hc, fun d hd => List.mem_takeWhile_imp hd⟩, hword⟩ hstops

/-- No token of another kind begins with a character that is an unknown token whatever follows. -/
theorem not_formed_of_unknown {c : Char} (hc : c ≠ nul)
    (hunknown : ∀ cs, (scanFrom c cs).1 = .unknown) (kind : TokenKind) (tail after : List Char) :
    ¬Formed kind (c :: tail) after := by
  intro htext
  have hscan := htext.scan?_eq
  rw [List.cons_append, scan?, if_neg hc, hunknown] at hscan
  obtain rfl : TokenKind.unknown = kind :=
    congrArg Piece.kind (Prod.mk.inj (Option.some.inj hscan)).1
  cases htext

/-- A scanned piece is allowed by the rule of its kind. -/
theorem lexical_scanFrom {c : Char} (hc : c ≠ nul) (cs : List Char) :
    Lexical (scanFrom c cs).1 (c :: (scanFrom c cs).2.1) (scanFrom c cs).2.2 := by
  by_cases halpha : c.isAlpha = true
  · exact .formed (formed_alpha halpha cs)
  let Allowed (r : TokenKind × List Char × List Char) : Prop := Lexical r.1 (c :: r.2.1) r.2.2
  change Allowed (scanFrom c cs)
  unfold scanFrom
  refine iteInduction (fun h => ?_) fun hfeed => ?_
  · subst h
    exact .formed .newLine
  refine iteInduction (fun h => ?_) fun hgap => ?_
  · exact .formed (.whitespace h (fun d hd => List.mem_takeWhile_imp hd) (stops_dropWhile _ _))
  refine iteInduction (fun h => ?_) fun hcode => ?_
  · subst h
    exact .formed (.code (codeBody_codeRun cs))
  refine iteInduction (fun h => ?_) fun hcolon => ?_
  · subst h
    exact .formed .colon
  refine iteInduction (fun h => ?_) fun hdollar => ?_
  · subst h
    exact .formed (.textId (fun d hd => List.mem_takeWhile_imp hd) (stops_dropWhile _ _))
  refine iteInduction (fun h => ?_) fun hbracket => ?_
  · subst h
    exact .formed (.condition (enclosed_through '[' ']' cs))
  refine iteInduction (fun h => ?_) fun hquote => ?_
  · subst h
    exact .formed (.string (enclosed_through '"' '"' cs))
  refine iteInduction (fun h => ?_) fun hcomment => ?_
  · refine .formed (.comment h (fun hmem => ?_) (stops_dropWhile _ _))
    have hne : decide ('\n' ≠ '\n') = true :=
      List.mem_takeWhile_imp (p := fun d => d ≠ '\n') hmem
    exact absurd hne (by decide)
  refine iteInduction (fun h => ?_) fun harrow => ?_
  · obtain ⟨rfl, hhead⟩ := h
    obtain ⟨ds, rfl⟩ := List.head?_eq_some_iff.mp hhead
    exact .formed .arrow
  refine iteInduction (fun h => ?_) fun hminus => ?_
  · subst h
    exact .formed (formed_minus fun hhead => harrow ⟨rfl, hhead⟩)
  refine iteInduction (fun h => ?_) fun hdigit => ?_
  · exact .formed (formed_digit h cs)
  refine iteInduction (fun h => absurd h halpha) fun _ => ?_
  refine .unknown hc (not_formed_of_unknown hc fun ds => ?_)
  have hminus' : ¬(c = '-' ∧ ds.head? = some '>') := fun h => hminus h.1
  rw [scanFrom, if_neg hfeed, if_neg hgap, if_neg hcode, if_neg hcolon, if_neg hdollar,
    if_neg hbracket, if_neg hquote, if_neg hcomment, if_neg hminus', if_neg hminus, if_neg hdigit,
    if_neg halpha]

theorem Lexical.scan?_eq (htext : Lexical kind text rest) :
    scan? (text ++ rest) = some (⟨kind, text⟩, rest) := by
  cases htext with
  | formed htext => exact htext.scan?_eq
  | @unknown c _ hc hother =>
      have hallowed := lexical_scanFrom hc rest
      have hparts := scanFrom_append c rest
      rw [List.singleton_append, scan?, if_neg hc]
      generalize scanFrom c rest = found at hallowed hparts ⊢
      obtain ⟨kind, tail, after⟩ := found
      cases hallowed with
      | formed htext => exact absurd htext (hother _ _ _)
      | unknown => exact congrArg (fun after => some (_, after)) hparts

/-- A piece is taken off a source exactly if the rule of its kind allows it there. -/
theorem scan?_eq_some_iff {cs : List Char} {p : Piece} :
    scan? cs = some (p, rest) ↔ cs = p.text ++ rest ∧ Lexical p.kind p.text rest := by
  constructor
  · intro hscan
    refine ⟨(scan?_eq_some hscan).1, ?_⟩
    obtain ⟨c, tail, -, hc, rfl, rfl⟩ := exists_scanFrom_of_scan? hscan
    exact lexical_scanFrom hc tail
  · rintro ⟨rfl, htext⟩
    exact htext.scan?_eq

-- A point without a digit behind it ends a number, an arrow head behind a minus begins none, and a
-- bracket of code is told apart from one of conditions by the spaces around it.
example : (all "-1.-.5->![ x [1]".toList).map (·.kind) =
    [.number, .unknown, .number, .arrow, .code, .condition] := by decide +kernel

/-! ### Characters of tokens -/

theorem Formed.number_chars (htext : Formed .number text rest) :
    ∀ c ∈ text, c.isDigit = true ∨ c = '.' ∨ c = '-' := by
  cases htext with
  | @number negative whole fraction _ hwhole hfraction =>
      have hpoint : ∀ c ∈ Decimal.withPoint whole fraction, c.isDigit = true ∨ c = '.' := by
        intro c hc
        rw [Decimal.withPoint] at hc
        split at hc
        · exact .inl (hwhole c hc)
        · rcases List.mem_append.mp hc with hc | hc
          · exact .inl (hwhole c hc)
          · exact (List.mem_cons.mp hc).symm.imp_left (hfraction c)
      intro c hc
      split at hc
      · rcases List.mem_cons.mp hc with rfl | hc
        · exact .inr (.inr rfl)
        · exact (hpoint c hc).imp_right .inl
      · exact (hpoint c hc).imp_right .inl

/-- A token that goes over its line is a line feed, a string or a condition. -/
theorem Lexical.kind_of_feed (htext : Lexical kind text rest) (hfeed : '\n' ∈ text) :
    kind = .newLine ∨ kind = .string ∨ kind = .condition := by
  have hcode {body : List Char} (hbody : CodeBody body rest) : '\n' ∉ body :=
    List.count_eq_zero.mp hbody.line.count_feed
  cases htext with
  | @unknown c _ hc hother =>
      obtain rfl := List.mem_singleton.mp hfeed
      exact absurd .newLine (hother .newLine [] [])
  | formed htext =>
      cases htext with
      | newLine => exact .inl rfl
      | string => exact .inr (.inl rfl)
      | condition => exact .inr (.inr rfl)
      | colon | arrow => simp at hfeed
      | whitespace hc hgap =>
          have hall : ∀ d ∈ _ :: _, isGap d = true := List.forall_mem_cons.mpr ⟨hc, hgap⟩
          exact absurd hfeed (List.count_eq_zero.mp (count_feed_eq_zero hall rfl))
      | word hword => exact absurd hfeed (List.count_eq_zero.mp hword.count_feed)
      | number hwhole hfraction hbegin hdigit hpoint harrow =>
          have hchars := (Formed.number hwhole hfraction hbegin hdigit hpoint harrow).number_chars
          rcases hchars _ hfeed with hfeed | hfeed | hfeed <;> cases hfeed
      | comment hc hbody =>
          rcases List.mem_cons.mp hfeed with rfl | hfeed
          · rcases hc with hc | hc <;> cases hc
          · exact absurd hfeed hbody
      | textId hid =>
          rcases List.mem_cons.mp hfeed with hfeed | hfeed
          · cases hfeed
          · exact absurd hfeed (List.count_eq_zero.mp (count_feed_eq_zero hid rfl))
      | code hbody =>
          rcases List.mem_cons.mp hfeed with hfeed | hfeed
          · cases hfeed
          · exact absurd hfeed (hcode hbody)
      | waitWhile hbody =>
          rcases List.mem_append.mp hfeed with hfeed | hfeed
          · exact absurd hfeed (by decide)
          · exact absurd hfeed (hcode hbody)

end Piece

/-! ### Tilings by the rules -/

/-- Each token but the end of input has a text in the source, which its rule allows before what
stands behind it. -/
def FollowsRules (source : List Char) (ts : List Token) : Prop :=
  ∀ t ∈ ts, t.kind ≠ .endOfInput → ∃ x, t.text? source = some x ∧
    Piece.Lexical t.kind x (startingAt source t.span.stop)

theorem followsRules_tokensFrom (cs : List Char) : ∀ before,
    FollowsRules (before ++ cs) (tokensFrom (utf8Length before) (Piece.all cs)) := by
  refine Piece.all_induct (motive := fun cs ps => ∀ before,
    FollowsRules (before ++ cs) (tokensFrom (utf8Length before) ps)) ?_ ?_ cs
  · intro cs _ before t ht hkind
    exact absurd (List.mem_singleton.mp ht ▸ rfl) hkind
  · intro cs p rest hscan ih before t ht hkind
    obtain ⟨rfl, hrule⟩ := Piece.scan?_eq_some_iff.mp hscan
    have hstop : utf8Length before + utf8Length p.text = utf8Length (before ++ p.text) :=
      (utf8Length_append before p.text).symm
    rw [tokensFrom, hstop] at ht
    rcases List.mem_cons.mp ht with rfl | ht
    · refine ⟨p.text, Span.text?_eq_some_iff.mpr ⟨before, rest, rfl, rfl, hstop.symm⟩, ?_⟩
      dsimp only
      rwa [← List.append_assoc, startingAt_append_utf8Length]
    · rw [← List.append_assoc]
      exact ih (before ++ p.text) t ht hkind

theorem head?_start_of_isChain {t : Token} {ts : List Token} (hne : ts ≠ [])
    (hchain : (t :: ts).IsChain fun t t' => t'.span.start = t.span.stop) :
    ts.head?.map (·.span.start) = some t.span.stop := by
  cases ts with
  | nil => exact absurd rfl hne
  | cons u us => exact congrArg some (List.isChain_cons_cons.mp hchain).1

/-- Tokens that follow the rules, each where the one before it stops, are those of the pieces. -/
theorem eq_tokensFrom_of_followsRules {source before cs : List Char} {e : Nat} {ts : List Token}
    (hsource : source = before ++ cs)
    (hend : e = utf8Length source ∨ (startingAt source e).head? = some Piece.nul)
    (hkinds : ∀ t ∈ ts, t.kind ≠ .endOfInput) (hrules : FollowsRules source ts)
    (hstart : (ts ++ [Token.endAt e]).head?.map (·.span.start) = some (utf8Length before))
    (hchain : (ts ++ [Token.endAt e]).IsChain fun t t' => t'.span.start = t.span.stop) :
    ts ++ [.endAt e] = tokensFrom (utf8Length before) (Piece.all cs) := by
  induction ts generalizing before cs with
  | nil =>
      obtain rfl : e = utf8Length before := Option.some.inj hstart
      have hended : Piece.Ends cs := by
        subst hsource
        rw [startingAt_append_utf8Length, utf8Length_append] at hend
        exact hend.imp_left fun hlength => utf8Length_eq_zero.mp (by omega)
      rw [Piece.all_of_none (Piece.scan?_eq_none_iff.mpr hended)]
      rfl
  | cons t ts ih =>
      obtain ⟨x, htext, hrule⟩ := hrules t List.mem_cons_self (hkinds t List.mem_cons_self)
      obtain ⟨kind, start, stop⟩ := t
      obtain rfl : start = utf8Length before := Option.some.inj hstart
      rw [hsource] at htext
      obtain ⟨after, rfl, rfl⟩ := Span.exists_of_text?_append rfl htext
      rw [← List.append_assoc] at hsource
      rw [hsource, startingAt_append_utf8Length] at hrule
      have hscan : Piece.scan? (x ++ after) = some (⟨kind, x⟩, after) :=
        Piece.scan?_eq_some_iff.mpr ⟨rfl, hrule⟩
      have hrest := ih hsource (fun u hu => hkinds u (List.mem_cons_of_mem _ hu))
        (fun u hu => hrules u (List.mem_cons_of_mem _ hu))
        (head?_start_of_isChain (by simp) hchain) hchain.tail
      rw [Piece.all_of_some hscan, tokensFrom, ← utf8Length_append, ← hrest]
      rfl

/-- The tokens of a source are its only tiling in which every token follows the rule of its kind. -/
theorem eq_tokens_iff (source : List Char) (ts : List Token) :
    ts = tokens source ↔ (∃ e, TilesUpTo source e ts) ∧ FollowsRules source ts := by
  refine Iff.symm ⟨?_, ?_⟩
  · rintro ⟨⟨e, htiles⟩, hrules⟩
    obtain ⟨before, rfl, hbefore⟩ := htiles.ended
    rw [tokens_eq]
    have hrules' : FollowsRules source before :=
      fun t ht => hrules t (List.mem_append_left _ ht)
    exact eq_tokensFrom_of_followsRules (List.nil_append source).symm htiles.stops
      (fun t ht => (hbefore t ht).1) hrules' htiles.starts htiles.adjacent
  · rintro rfl
    refine ⟨⟨_, tilesUpTo_tokens source⟩, ?_⟩
    rw [tokens_eq]
    exact followsRules_tokensFrom source []

end DialogScript
