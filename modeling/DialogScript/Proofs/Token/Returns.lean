import DialogScript.Proofs.Text.Line
import DialogScript.Proofs.Token.Grammar

/-!
# Carriage returns before line feeds

A carriage return that is put before a line feed is a gap between tokens, unless a token that goes
on to the end of its line takes it along. Code, a comment, a gap and a text identifier do so. No
token before the line feed ends elsewhere for it, and none begins in it but a gap.

## Main definitions

* `withReturns`: a text with a carriage return before each line feed
* `TokenKind.takesReturn`: the kinds of tokens that take the carriage return along

## Main results

* `lastLine_withReturns`, `firstLine_withReturns`: the lines of the text
* `Piece.scan?_withReturns`: the piece that is taken off the text
-/

namespace DialogScript

/-- The text with a carriage return before each line feed. -/
def withReturns (cs : List Char) : List Char :=
  cs.flatMap fun c => if c = '\n' then ['\r', '\n'] else [c]

@[simp]
theorem withReturns_nil : withReturns [] = [] := rfl

theorem withReturns_feed (cs : List Char) :
    withReturns ('\n' :: cs) = '\r' :: '\n' :: withReturns cs := rfl

theorem withReturns_cons {c : Char} (hc : c ≠ '\n') (cs : List Char) :
    withReturns (c :: cs) = c :: withReturns cs := by
  rw [withReturns, List.flatMap_cons, if_neg hc]
  rfl

theorem withReturns_append (cs ds : List Char) :
    withReturns (cs ++ ds) = withReturns cs ++ withReturns ds :=
  List.flatMap_append

theorem withReturns_of_not_mem {cs : List Char} (hcs : '\n' ∉ cs) : withReturns cs = cs := by
  induction cs with
  | nil => rfl
  | cons c cs ih =>
      rw [List.mem_cons, not_or] at hcs
      rw [withReturns_cons (Ne.symm hcs.1), ih hcs.2]

theorem head?_withReturns {cs : List Char} (hcs : cs.head? ≠ some '\n') :
    (withReturns cs).head? = cs.head? := by
  cases cs with
  | nil => rfl
  | cons c cs =>
      rw [withReturns_cons fun hc => hcs (congrArg some hc)]
      rfl

theorem stops_withReturns {p : Char → Bool} (hp : p '\r' = false) {cs : List Char}
    (hcs : Stops p cs) : Stops p (withReturns cs) := by
  by_cases hfeed : cs.head? = some '\n'
  · obtain ⟨ds, rfl⟩ := List.head?_eq_some_iff.mp hfeed
    exact stops_cons hp _
  · rw [Stops, head?_withReturns hfeed]
    exact hcs

/-- A character other than those that end a line was there before. -/
theorem exists_eq_cons_of_withReturns {c : Char} (hc : c ≠ '\r') {cs after : List Char}
    (hcs : withReturns cs = c :: after) : ∃ tail, cs = c :: tail ∧ withReturns tail = after := by
  cases cs with
  | nil => cases hcs
  | cons d tail =>
      by_cases hd : d = '\n'
      · subst hd
        exact absurd (List.cons.inj hcs).1.symm hc
      · rw [withReturns_cons hd] at hcs
        obtain ⟨rfl, htail⟩ := List.cons.inj hcs
        exact ⟨tail, rfl, htail⟩

/-! ### Lines -/

theorem lastLine_concat (cs : List Char) (c : Char) :
    lastLine (cs ++ [c]) = if c = '\n' then [] else lastLine cs ++ [c] := by
  rw [lastLine, List.reverse_concat, List.takeWhile_cons]
  by_cases hc : c = '\n'
  · simp [hc]
  · simp [hc, lastLine]

/-- A line begins behind the line feed before it. -/
theorem lastLine_withReturns (cs : List Char) : lastLine (withReturns cs) = lastLine cs := by
  induction cs using List.reverseRecOn with
  | nil => rfl
  | append_singleton cs c ih =>
      rw [withReturns_append, lastLine_concat]
      by_cases hc : c = '\n'
      · subst hc
        rw [if_pos rfl, withReturns_feed, withReturns_nil, List.append_cons, lastLine_concat,
          if_pos rfl]
      · rw [if_neg hc, withReturns_cons hc, withReturns_nil, lastLine_concat, if_neg hc, ih]

/-- A line that ends in a line feed has the carriage return at its end. -/
theorem firstLine_withReturns (cs : List Char) :
    firstLine (withReturns cs) = firstLine cs ∨
      firstLine (withReturns cs) = firstLine cs ++ ['\r'] := by
  induction cs with
  | nil => exact .inl rfl
  | cons c cs ih =>
      by_cases hc : c = '\n'
      · subst hc
        exact .inr rfl
      · have hcons (cs : List Char) : firstLine (c :: cs) = c :: firstLine cs :=
          List.takeWhile_cons_of_pos (decide_eq_true hc)
        rw [withReturns_cons hc, hcons, hcons]
        exact ih.imp (congrArg (c :: ·)) (congrArg (c :: ·))

/-! ### Pieces -/

/-- The kinds of tokens that take along a carriage return at the end of their line. -/
def TokenKind.takesReturn : TokenKind → Bool
  | .whitespace | .comment | .textId | .code | .waitWhile => true
  | _ => false

theorem SpacedBrackets.concat {spaced : Bool} {cs : List Char} (hcs : SpacedBrackets spaced cs)
    {c : Char} (hc : c ≠ '[') : SpacedBrackets spaced (cs ++ [c]) := by
  induction cs generalizing spaced with
  | nil => exact ⟨fun _ hbracket => absurd hbracket hc, trivial⟩
  | cons d cs ih =>
      refine ⟨fun hspaced hbracket => ?_, ih hcs.2⟩
      obtain ⟨ds, rfl⟩ := List.head?_eq_some_iff.mp (hcs.1 hspaced hbracket)
      rfl

namespace Piece

variable {kind : TokenKind} {text rest : List Char}

theorem EndsRun.before_returns {spaced : Prop} (hrest : EndsRun spaced rest)
    (hfeed : rest.head? ≠ some '\n') : EndsRun spaced (withReturns rest) := by
  rcases hrest with rfl | hhead | hnul | ⟨hspaced, after, rfl, hafter⟩
  · exact .inl rfl
  · exact absurd hhead hfeed
  · exact .inr (.inr (.inl ((head?_withReturns hfeed).trans hnul)))
  · refine .inr (.inr (.inr ⟨hspaced, _, withReturns_cons (by decide) after, ?_⟩))
    by_cases hline : after.head? = some '\n'
    · obtain ⟨ds, rfl⟩ := List.head?_eq_some_iff.mp hline
      exact fun hspace => absurd (Option.some.inj hspace) (by decide)
    · rwa [head?_withReturns hline]

end Piece

theorem CodeBody.before_returns {body rest : List Char} (hbody : CodeBody body rest)
    (hfeed : rest.head? ≠ some '\n') : CodeBody body (withReturns rest) :=
  ⟨hbody.line, hbody.brackets, hbody.ended.before_returns hfeed⟩

theorem CodeBody.concat_return {body rest : List Char} (hbody : CodeBody body rest)
    (more : List Char) : CodeBody (body ++ ['\r']) ('\n' :: more) := by
  refine ⟨fun c hc => ?_, hbody.brackets.concat (by decide), .inr (.inl rfl)⟩
  rcases List.mem_append.mp hc with hc | hc
  · exact hbody.line c hc
  · rw [List.mem_singleton.mp hc]
    decide

namespace Piece

variable {kind : TokenKind} {text rest : List Char}

theorem Enclosed.before_returns {opening closing : Char}
    (htext : Enclosed opening closing text rest) :
    Enclosed opening closing text (withReturns rest) := by
  obtain ⟨body, hbody, hclosed | ⟨hopen, rfl⟩⟩ := htext
  · exact ⟨body, hbody, .inl hclosed⟩
  · exact ⟨body, hbody, .inr ⟨hopen, rfl⟩⟩

/-- What a rule allows before a text it allows before that text with carriage returns, if the token
does not take the first one along. -/
theorem Formed.before_returns (htext : Formed kind text rest)
    (hreturn : kind.takesReturn = true → rest.head? ≠ some '\n') :
    Formed kind text (withReturns rest) := by
  have hstops {p : Char → Bool} (hfeed : rest.head? ≠ some '\n') (h : Stops p rest) :
      Stops p (withReturns rest) := by
    rw [Stops, head?_withReturns hfeed]
    exact h
  cases htext with
  | newLine => exact .newLine
  | whitespace hc hgap hrest => exact .whitespace hc hgap (hstops (hreturn rfl) hrest)
  | colon => exact .colon
  | arrow => exact .arrow
  | word htext hrest => exact .word htext (stops_withReturns rfl hrest)
  | number hwhole hfraction hbegin hdigit hpoint harrow =>
      refine .number hwhole hfraction hbegin (stops_withReturns rfl hdigit) ?_ ?_
      · intro hnone d after hcons
        obtain ⟨tail, rfl, htail⟩ := exists_eq_cons_of_withReturns (by decide) hcons
        have hdigit : Stops Char.isDigit tail := fun e he => by
          obtain ⟨es, rfl⟩ := List.head?_eq_some_iff.mp he
          exact hpoint hnone e es rfl
        exact stops_withReturns rfl hdigit d (htail ▸ rfl)
      · intro hwhole hnone hhead
        obtain ⟨after, hcons⟩ := List.head?_eq_some_iff.mp hhead
        obtain ⟨tail, rfl, -⟩ := exists_eq_cons_of_withReturns (by decide) hcons
        exact harrow hwhole hnone rfl
  | string htext => exact .string htext.before_returns
  | condition htext => exact .condition htext.before_returns
  | comment hc hbody hrest => exact .comment hc hbody (hstops (hreturn rfl) hrest)
  | textId hid hrest => exact .textId hid (hstops (hreturn rfl) hrest)
  | code hbody => exact .code (hbody.before_returns (hreturn rfl))
  | waitWhile hbody hword => exact .waitWhile (hbody.before_returns (hreturn rfl)) hword

/-- At the end of its line a token takes the carriage return along. -/
theorem Formed.concat_return (htext : Formed kind text ('\n' :: rest))
    (hkind : kind.takesReturn = true) (more : List Char) :
    Formed kind (text ++ ['\r']) ('\n' :: more) := by
  have hall {p : Char → Bool} {cs : List Char} (hp : p '\r' = true) (hcs : ∀ c ∈ cs, p c = true) :
      ∀ c ∈ cs ++ ['\r'], p c = true := by
    intro c hc
    rcases List.mem_append.mp hc with hc | hc
    · exact hcs c hc
    · rwa [List.mem_singleton.mp hc]
  cases htext with
  | whitespace hc hgap => exact .whitespace hc (hall rfl hgap) (stops_cons rfl more)
  | comment hc hbody => exact .comment hc (by simpa using hbody) (stops_cons rfl more)
  | textId hid => exact .textId (hall rfl hid) (stops_cons rfl more)
  | code hbody => exact .code (hbody.concat_return more)
  | @waitWhile body _ hbody hword =>
      rw [List.append_assoc]
      refine .waitWhile (hbody.concat_return more) ?_
      cases body with
      | nil => exact stops_cons rfl []
      | cons c cs => exact stops_cons (hword c rfl) _
  | newLine | colon | arrow | word | number | string | condition => cases hkind

/-- A piece is taken off a text with carriage returns as it is off the text, but it takes the one at
the end of its line along if it is of a kind that does. -/
theorem scan?_withReturns {cs : List Char} {p : Piece} (hscan : scan? cs = some (p, rest))
    (hfeed : '\n' ∉ p.text) :
    scan? (withReturns cs) = some (p, withReturns rest) ∨
      p.kind.takesReturn = true ∧ ∃ after, rest = '\n' :: after ∧
        scan? (withReturns cs) = some (⟨p.kind, p.text ++ ['\r']⟩, '\n' :: withReturns after) := by
  obtain ⟨kind, text⟩ := p
  obtain ⟨rfl, hrule⟩ := scan?_eq_some_iff.mp hscan
  dsimp only at hfeed hrule ⊢
  rw [withReturns_append, withReturns_of_not_mem hfeed]
  cases hrule with
  | unknown hc hother =>
      exact .inl (scan?_eq_some_iff.mpr ⟨rfl, .unknown hc hother⟩)
  | formed htext =>
      by_cases hreturn : kind.takesReturn = true ∧ rest.head? = some '\n'
      · obtain ⟨hkind, hhead⟩ := hreturn
        obtain ⟨after, rfl⟩ := List.head?_eq_some_iff.mp hhead
        refine .inr ⟨hkind, after, rfl, scan?_eq_some_iff.mpr ⟨?_, ?_⟩⟩
        · rw [withReturns_feed, List.append_cons]
        · exact .formed (htext.concat_return hkind _)
      · refine .inl (scan?_eq_some_iff.mpr ⟨rfl, .formed (htext.before_returns ?_)⟩)
        exact fun hkind hhead => hreturn ⟨hkind, hhead⟩

end Piece

end DialogScript
