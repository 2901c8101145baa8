import DialogScript.Proofs.Text.Span
import DialogScript.Proofs.Token.Shape
import DialogScript.Token.Reader
import Mathlib.Data.List.Chain

/-!
# Tokens tile the source

The pieces of a source stand one behind the other, so the tokens that are made of them do: each
starts where the one before stops, and none cuts a character, because its offsets are lengths of
texts. Behind the pieces stands the end of the source or a NUL. There a reader has nothing left to
scan, and stays.

## Main definitions

* `Token.endAt`: the end of input at an offset
* `tokensFrom`: the tokens of pieces that start at an offset, the end of input behind them
* `TilesUpTo`: tokens cover a source up to an offset without gaps or overlaps
* `Reader.after`: a reader after some calls

## Main results

* `Reader.token_after`, `Reader.remaining_eq`: what the calls and the iteration of a reader give
* `tokens_tile_source`: the tokens of a source tile it
-/

namespace DialogScript

namespace Piece

/-- A source ends at its end and at a NUL. -/
def Ends (cs : List Char) : Prop := cs = [] ∨ cs.head? = some nul

theorem scan?_eq_none_iff {cs : List Char} : scan? cs = none ↔ Ends cs := by
  cases cs with
  | nil => simp [scan?, Ends]
  | cons c cs => simp [scan?, Ends]

/-- Whatever a piece begins with, it is not the end of the input. -/
theorem kind_scanFrom_ne (c : Char) (cs : List Char) : (scanFrom c cs).1 ≠ .endOfInput := by
  unfold scanFrom
  let Other (r : TokenKind × List Char × List Char) : Prop := r.1 ≠ .endOfInput
  change Other _
  repeat' refine iteInduction (fun _ => ?_) fun _ => ?_
  all_goals exact TokenKind.noConfusion

theorem kind_ne_endOfInput {cs rest : List Char} {p : Piece} (hscan : scan? cs = some (p, rest)) :
    p.kind ≠ .endOfInput := by
  obtain ⟨c, tail, -, -, rfl, -⟩ := exists_scanFrom_of_scan? hscan
  exact kind_scanFrom_ne c tail

theorem other_of_mem_all {cs : List Char} {p : Piece} (hp : p ∈ all cs) :
    p.kind ≠ .endOfInput ∧ p.text ≠ [] :=
  of_mem_all (P := fun p => p.kind ≠ .endOfInput ∧ p.text ≠ [])
    (fun _ _ _ hscan => ⟨kind_ne_endOfInput hscan, (scan?_eq_some hscan).2⟩) hp

/-- The pieces of a source make up its text to where it ends. -/
theorem exists_eq_append_all (cs : List Char) :
    ∃ after, cs = (all cs).flatMap text ++ after ∧ Ends after := by
  refine all_induct (motive := fun cs ps => ∃ after, cs = ps.flatMap text ++ after ∧ Ends after)
    ?_ ?_ cs
  · exact fun cs hscan => ⟨cs, rfl, scan?_eq_none_iff.mp hscan⟩
  · rintro cs p rest hscan ⟨after, hrest, hafter⟩
    refine ⟨after, ?_, hafter⟩
    rw [List.flatMap_cons, List.append_assoc, ← hrest, (scan?_eq_some hscan).1]

end Piece

/-! ### The tokens of pieces -/

/-- The end of input at the offset `o`. -/
def Token.endAt (o : Nat) : Token := ⟨.endOfInput, .empty o⟩

/-- The tokens of pieces, the first of which starts at the offset `o`, and the end of input behind
them. -/
def tokensFrom (o : Nat) : List Piece → List Token
  | [] => [.endAt o]
  | p :: ps => ⟨p.kind, o, o + utf8Length p.text⟩ :: tokensFrom (o + utf8Length p.text) ps

theorem tokensFrom_eq (o n : Nat) (ps : List Piece) :
    tokensFrom o ps = (lexemesFrom o n ps).map Lexeme.token ++
      [.endAt (o + utf8Length (ps.flatMap Piece.text))] := by
  induction ps generalizing o n with
  | nil => rfl
  | cons p ps ih =>
      rw [tokensFrom, ih _ (n + p.text.count '\n'), List.flatMap_cons, utf8Length_append,
        ← Nat.add_assoc]
      rfl

theorem tokens_eq (source : List Char) : tokens source = tokensFrom 0 (Piece.all source) := by
  rw [tokensFrom_eq 0 0, Nat.zero_add]
  rfl

theorem head?_start_tokensFrom (o : Nat) (ps : List Piece) :
    (tokensFrom o ps).head?.map (·.span.start) = some o := by
  cases ps <;> rfl

/-- Each token starts where the one before it stops. -/
theorem isChain_tokensFrom (o : Nat) (ps : List Piece) :
    (tokensFrom o ps).IsChain fun t t' => t'.span.start = t.span.stop := by
  induction ps generalizing o with
  | nil => exact .singleton _
  | cons p ps ih =>
      refine List.isChain_cons.mpr ⟨fun t ht => ?_, ih _⟩
      have hstart := head?_start_tokensFrom (o + utf8Length p.text) ps
      rw [Option.mem_def.mp ht] at hstart
      exact Option.some.inj hstart

/-- The tokens of pieces have the texts of the pieces, the end of input has none. -/
theorem map_text?_tokensFrom (before after : List Char) (ps : List Piece) :
    (tokensFrom (utf8Length before) ps).map
        (Token.text? (before ++ (ps.flatMap Piece.text ++ after))) =
      (ps.map Piece.text ++ [[]]).map some := by
  induction ps generalizing before with
  | nil =>
      have htext : Span.text? (before ++ after) (.empty (utf8Length before)) = some [] :=
        Span.text?_eq_some_iff.mpr ⟨before, after, rfl, rfl, rfl⟩
      exact congrArg (· :: []) htext
  | cons p ps ih =>
      have htext : Span.text? (before ++ (p.text ++ (ps.flatMap Piece.text ++ after)))
          ⟨utf8Length before, utf8Length before + utf8Length p.text⟩ = some p.text :=
        Span.text?_eq_some_iff.mpr ⟨before, _, rfl, rfl, rfl⟩
      have hrest := ih (before ++ p.text)
      rw [utf8Length_append, List.append_assoc] at hrest
      rw [tokensFrom, List.flatMap_cons, List.append_assoc]
      exact congrArg₂ List.cons htext hrest

/-! ### The tokens of a source -/

/-- The tokens `ts` cover a source up to the offset `e` without gaps or overlaps. -/
structure TilesUpTo (source : List Char) (e : Nat) (ts : List Token) : Prop where
  /-- The end of input stands last, and no token before it is one or is empty. -/
  ended : ∃ before, ts = before ++ [.endAt e] ∧
    ∀ t ∈ before, t.kind ≠ .endOfInput ∧ t.span.start < t.span.stop
  starts : ts.head?.map (·.span.start) = some 0
  adjacent : ts.IsChain fun t t' => t'.span.start = t.span.stop
  boundaries : ∀ t ∈ ts, IsBoundary source t.span.start ∧ IsBoundary source t.span.stop ∧
    t.span.stop ≤ utf8Length source
  stops : e = utf8Length source ∨ (startingAt source e).head? = some Piece.nul
  /-- The texts of the tokens make up the source to the offset, or all of it if it holds no NUL. -/
  texts : ∃ texts : List (List Char), ts.map (Token.text? source) = texts.map some ∧
    texts.flatten = upTo source e ∧ (Piece.nul ∉ source → texts.flatten = source)

theorem mem_map_token_lexemesFrom {t : Token} {o n : Nat} {ps : List Piece}
    (ht : t ∈ (lexemesFrom o n ps).map Lexeme.token) :
    ∃ p ∈ ps, t.kind = p.kind ∧ t.span.stop = t.span.start + utf8Length p.text := by
  induction ps generalizing o n with
  | nil => cases ht
  | cons p ps ih =>
      rcases List.mem_cons.mp ht with rfl | ht
      · exact ⟨p, List.mem_cons_self, rfl, rfl⟩
      · obtain ⟨q, hq, hkind⟩ := ih ht
        exact ⟨q, List.mem_cons_of_mem p hq, hkind⟩

/-- The pieces of a source make up its text to where they end. -/
theorem upTo_endOffset (source : List Char) :
    upTo source (endOffset source) = (Piece.all source).flatMap Piece.text := by
  obtain ⟨after, hsource, -⟩ := Piece.exists_eq_append_all source
  have hpart := upTo_append_utf8Length ((Piece.all source).flatMap Piece.text) after
  rwa [← hsource] at hpart

theorem ends_startingAt_endOffset (source : List Char) :
    Piece.Ends (startingAt source (endOffset source)) := by
  obtain ⟨after, hsource, hafter⟩ := Piece.exists_eq_append_all source
  have hpart := startingAt_append_utf8Length ((Piece.all source).flatMap Piece.text) after
  rw [← hsource] at hpart
  rwa [endOffset, hpart]

theorem map_text?_tokens (source : List Char) : (tokens source).map (Token.text? source) =
    ((Piece.all source).map Piece.text ++ [[]]).map some := by
  obtain ⟨after, hsource, -⟩ := Piece.exists_eq_append_all source
  have htexts := map_text?_tokensFrom [] after (Piece.all source)
  rwa [List.nil_append, ← hsource, utf8Length, ← tokens_eq] at htexts

/-- The tokens of a source tile it up to where its pieces end. -/
theorem tilesUpTo_tokens (source : List Char) :
    TilesUpTo source (endOffset source) (tokens source) := by
  have hparts := upTo_append_startingAt source (endOffset source)
  have hflatten : ((Piece.all source).map Piece.text ++ [[]]).flatten =
      upTo source (endOffset source) := by
    rw [upTo_endOffset, List.flatten_append, List.flatMap_def]
    exact List.append_nil _
  refine ⟨⟨_, rfl, ?_⟩, ?_, ?_, ?_, ?_, ⟨_, map_text?_tokens source, hflatten, ?_⟩⟩
  · intro t ht
    obtain ⟨p, hp, hkind, hstop⟩ := mem_map_token_lexemesFrom ht
    obtain ⟨hother, hne⟩ := Piece.other_of_mem_all hp
    have hpos : 0 < utf8Length p.text :=
      Nat.pos_of_ne_zero fun hzero => hne (utf8Length_eq_zero.mp hzero)
    exact ⟨hkind ▸ hother, by omega⟩
  · rw [tokens_eq]
    exact head?_start_tokensFrom 0 _
  · rw [tokens_eq]
    exact isChain_tokensFrom 0 _
  · intro t ht
    obtain ⟨x, -, hx⟩ := List.mem_map.mp (map_text?_tokens source ▸ List.mem_map_of_mem ht)
    exact Span.isBoundary_of_text? hx.symm
  · refine (ends_startingAt_endOffset source).imp_left fun hend => ?_
    rw [hend, List.append_nil, upTo_endOffset] at hparts
    rw [endOffset, hparts]
  · intro hnul
    rcases ends_startingAt_endOffset source with hend | hhead
    · rw [hend, List.append_nil] at hparts
      exact hflatten.trans hparts
    · refine absurd ?_ hnul
      rw [← hparts]
      exact List.mem_append_right _ (List.mem_of_mem_head? hhead)

/-! ### Reading token by token -/

theorem endOffset_of_none {cs : List Char} (hscan : Piece.scan? cs = none) : endOffset cs = 0 := by
  rw [endOffset, Piece.all_of_none hscan]
  rfl

theorem endOffset_of_some {cs rest : List Char} {p : Piece}
    (hscan : Piece.scan? cs = some (p, rest)) :
    endOffset cs = utf8Length p.text + endOffset rest := by
  rw [endOffset, Piece.all_of_some hscan, List.flatMap_cons, utf8Length_append]
  rfl

namespace Reader

/-- The reader after `n` calls. -/
def after (n : Nat) (r : Reader) : Reader := (fun r => r.next.2)^[n] r

theorem after_succ (n : Nat) (r : Reader) : r.after (n + 1) = r.next.2.after n := rfl

variable {r : Reader}

theorem next_of_none (hscan : Piece.scan? r.ahead = none) :
    r.next = (⟨.endOfInput, [], r.offset, r.lineOf r.offset⟩, r) := by
  rw [next, hscan]

theorem next_of_some {p : Piece} {rest : List Char} (hscan : Piece.scan? r.ahead = some (p, rest)) :
    r.next = (⟨p.kind, p.text, r.offset, (r.pass p rest).lineOf r.offset⟩,
      r.pass p rest) := by
  rw [next, hscan]

theorem iterate_of_none (hr : r.finished = false) (hscan : Piece.scan? r.ahead = none) :
    r.iterate = some (⟨.endOfInput, [], r.offset, r.lineOf r.offset⟩,
      { r with finished := true }) := by
  rw [iterate, hr, if_neg Bool.false_ne_true, next_of_none hscan]
  rfl

theorem iterate_of_some {p : Piece} {rest : List Char} (hr : r.finished = false)
    (hscan : Piece.scan? r.ahead = some (p, rest)) :
    r.iterate = some (⟨p.kind, p.text, r.offset, (r.pass p rest).lineOf r.offset⟩,
      r.pass p rest) := by
  rw [iterate, hr, if_neg Bool.false_ne_true, next_of_some hscan]
  exact congrArg (fun r' => some (_, r')) (if_neg (Piece.kind_ne_endOfInput hscan))

/-- The call after `n` calls gives the token that `n` tokens stand before, and the end of input if
there is none. -/
theorem token_after (n : Nat) (r : Reader) :
    (r.after n).next.1.token = (tokensFrom r.offset (Piece.all r.ahead))[n]?.getD
      (.endAt (r.offset + endOffset r.ahead)) := by
  induction n generalizing r with
  | zero =>
      change r.next.1.token = _
      cases hscan : Piece.scan? r.ahead with
      | none =>
          rw [next_of_none hscan, Piece.all_of_none hscan]
          rfl
      | some found =>
          rw [next_of_some hscan, Piece.all_of_some hscan]
          rfl
  | succ n ih =>
      rw [after_succ, ih]
      cases hscan : Piece.scan? r.ahead with
      | none =>
          rw [next_of_none hscan, Piece.all_of_none hscan, endOffset_of_none hscan]
          cases n <;> rfl
      | some found =>
          rw [next_of_some hscan, Piece.all_of_some hscan, endOffset_of_some hscan,
            ← Nat.add_assoc]
          rfl

/-- At the end every call gives the end of input. -/
theorem token_after_of_none (n : Nat) (hscan : Piece.scan? r.ahead = none) :
    (r.after n).next.1.token = .endAt r.offset := by
  rw [token_after, Piece.all_of_none hscan, endOffset_of_none hscan]
  cases n <;> rfl

/-- An iteration gives all tokens from where the reader stands, and leaves it at the end. -/
theorem remainingUpTo_eq {n : Nat} (hn : r.ahead.length < n) (hr : r.finished = false) :
    (remainingUpTo n r).1.map Lexeme.token = tokensFrom r.offset (Piece.all r.ahead) ∧
      (remainingUpTo n r).2.finished = true ∧
      Piece.scan? (remainingUpTo n r).2.ahead = none ∧
      (remainingUpTo n r).2.offset = r.offset + endOffset r.ahead := by
  induction n generalizing r with
  | zero => cases hn
  | succ n ih =>
      cases hscan : Piece.scan? r.ahead with
      | none =>
          have hover (m : Nat) : remainingUpTo m { r with finished := true } =
              ([], { r with finished := true }) := by
            cases m <;> rfl
          rw [remainingUpTo, iterate_of_none hr hscan, Piece.all_of_none hscan,
            endOffset_of_none hscan]
          dsimp only
          rw [hover]
          exact ⟨rfl, rfl, hscan, rfl⟩
      | some found =>
          obtain ⟨p, rest⟩ := found
          have hrest : (r.pass p rest).ahead.length < n :=
            Nat.lt_of_lt_of_le (Piece.length_lt_of_scan? hscan) (Nat.le_of_lt_succ hn)
          obtain ⟨htokens, hfinished, hended, hoffset⟩ := ih hrest hr
          rw [remainingUpTo, iterate_of_some hr hscan, Piece.all_of_some hscan,
            endOffset_of_some hscan, ← Nat.add_assoc]
          exact ⟨congrArg (List.cons _) htokens, hfinished, hended, hoffset⟩

end Reader

/-- The tokens of a source tile it. An iteration over the source gives them and is then over; call
by call, a reader gives them and from then on the end of input. -/
theorem tokens_tile_source (source : List Char) :
    ∃ e, TilesUpTo source e (tokens source) ∧
      (Reader.ofSource source).remaining.1.map Lexeme.token = tokens source ∧
      (Reader.ofSource source).remaining.2.iterate = none ∧
      ∀ n, ((Reader.ofSource source).after n).next.1.token =
          (tokens source)[n]?.getD (.endAt e) ∧
        ((Reader.ofSource source).remaining.2.after n).next.1.token = .endAt e := by
  obtain ⟨htokens, hfinished, hended, hoffset⟩ :=
    Reader.remainingUpTo_eq (r := .ofSource source) (Nat.lt_succ_self _) rfl
  have hstart : (Reader.ofSource source).offset + endOffset source = endOffset source :=
    Nat.zero_add _
  refine ⟨endOffset source, tilesUpTo_tokens source, htokens.trans (tokens_eq source).symm,
    if_pos hfinished, fun n => ⟨?_, ?_⟩⟩
  · rw [tokens_eq, ← hstart]
    exact Reader.token_after n (.ofSource source)
  · rw [← hstart]
    exact (Reader.token_after_of_none n hended).trans (by rw [hoffset]; rfl)

end DialogScript
