import DialogScript.Token.Scan
import Mathlib.Data.List.TakeWhile

/-!
# What the texts of pieces look like

The kind of a piece tells what its text is made of. A string holds one quote at its front and at
most one more, at its end; a condition does so with its brackets; a run of code stays on its line.

## Main definitions

* `IsWord`: the texts of words
* `Piece.WellShaped`: the texts that go with the kinds

## Main results

* `Piece.all_induct`: induction over the pieces of a source
* `Piece.wellShaped_of_mem_all`: every piece of a source has a text that goes with its kind
-/

namespace DialogScript

/-- The characters of a word: a letter, and letters, digits and low lines, save the word that takes
code along. -/
def IsWord (cs : List Char) : Prop :=
  (∃ c tail, cs = c :: tail ∧ c.isAlpha = true ∧ ∀ d ∈ tail, Piece.isWordChar d = true) ∧
    cs ≠ Piece.waitWhileWord

theorem isWord_cons {c : Char} {tail : List Char} (hc : c.isAlpha = true)
    (htail : tail.all Piece.isWordChar = true) (hne : c :: tail ≠ Piece.waitWhileWord) :
    IsWord (c :: tail) :=
  ⟨⟨c, tail, rfl, hc, List.all_eq_true.mp htail⟩, hne⟩

theorem isWord_cons_iff {c : Char} {tail : List Char} : IsWord (c :: tail) ↔
    c.isAlpha = true ∧ tail.all Piece.isWordChar = true ∧ c :: tail ≠ Piece.waitWhileWord := by
  constructor
  · rintro ⟨⟨d, tail', hcons, hd, htail⟩, hne⟩
    obtain ⟨rfl, rfl⟩ := List.cons.inj hcons
    exact ⟨hd, List.all_eq_true.mpr htail, hne⟩
  · exact fun ⟨hc, htail, hne⟩ => isWord_cons hc htail hne

/-- The characters stay on their line and do not end the source. -/
def StaysOnLine (cs : List Char) : Prop := ∀ c ∈ cs, c ≠ '\n' ∧ c ≠ Piece.nul

/-- The text is one between two delimiters, the second of which may be missing. -/
def Delimited (opening closing : Char) (cs : List Char) : Prop :=
  ∃ body, closing ∉ body ∧ (cs = opening :: body ∨ cs = opening :: (body ++ [closing]))

namespace Piece

/-! ### The pieces of a source -/

/-- A piece is what is scanned from the first character of a source that has not ended. -/
theorem exists_scanFrom_of_scan? {cs rest : List Char} {p : Piece}
    (hscan : scan? cs = some (p, rest)) : ∃ c tail, cs = c :: tail ∧ c ≠ nul ∧
      p = ⟨(scanFrom c tail).1, c :: (scanFrom c tail).2.1⟩ ∧ rest = (scanFrom c tail).2.2 := by
  cases cs with
  | nil => cases hscan
  | cons c tail =>
      rw [scan?] at hscan
      split at hscan
      · cases hscan
      · rename_i hc
        obtain ⟨rfl, rfl⟩ := Prod.mk.inj (Option.some.inj hscan)
        exact ⟨c, tail, rfl, hc, rfl, rfl⟩

theorem all_of_none {cs : List Char} (hscan : scan? cs = none) : all cs = [] := by
  rw [all_eq, hscan]

theorem all_of_some {cs rest : List Char} {p : Piece} (hscan : scan? cs = some (p, rest)) :
    all cs = p :: all rest := by
  rw [all_eq, hscan]

/-- What holds of the pieces of an ended source, and of the pieces of a source if it holds of those
behind its first piece, holds of the pieces of every source. -/
theorem all_induct {motive : List Char → List Piece → Prop}
    (ended : ∀ cs, scan? cs = none → motive cs [])
    (piece : ∀ cs p rest, scan? cs = some (p, rest) → motive rest (all rest) →
      motive cs (p :: all rest)) (cs : List Char) : motive cs (all cs) := by
  induction hn : cs.length using Nat.strong_induction_on generalizing cs with
  | _ n ih =>
      cases hscan : scan? cs with
      | none => exact all_of_none hscan ▸ ended cs hscan
      | some found =>
          obtain ⟨p, rest⟩ := found
          rw [all_of_some hscan]
          exact piece cs p rest hscan (ih _ (hn ▸ length_lt_of_scan? hscan) rest rfl)

/-- What holds of every piece that is taken off a source holds of the pieces of a source. -/
theorem of_mem_all {P : Piece → Prop}
    (hP : ∀ cs p rest, scan? cs = some (p, rest) → P p) {p : Piece} {cs : List Char}
    (hp : p ∈ all cs) : P p := by
  revert hp
  refine all_induct (motive := fun _ ps => p ∈ ps → P p) ?_ ?_ cs
  · exact fun _ _ hp => absurd hp List.not_mem_nil
  · intro cs q rest hscan ih hp
    rcases List.mem_cons.mp hp with rfl | hp
    · exact hP cs _ rest hscan
    · exact ih hp

/-! ### Their texts -/

/-- The text of a piece goes with its kind. -/
def WellShaped (p : Piece) : Prop :=
  match p.kind with
  | .word => IsWord p.text
  | .string => Delimited '"' '"' p.text
  | .condition => Delimited '[' ']' p.text
  | .code => ∃ body, p.text = '!' :: body ∧ StaysOnLine body
  | .waitWhile => ∃ body, p.text = waitWhileWord ++ body ∧ StaysOnLine body
  | _ => True

theorem staysOnLine_codeRun (spaced : Bool) (cs : List Char) :
    StaysOnLine (codeRun spaced cs).1 := by
  induction cs generalizing spaced with
  | nil => simp [StaysOnLine, codeRun]
  | cons c cs ih =>
      rw [codeRun]
      split
      · simp [StaysOnLine]
      · rename_i hc
        split
        · simp [StaysOnLine]
        · intro d hd
          rcases List.mem_cons.mp hd with rfl | hd
          · exact not_or.mp hc
          · exact ih _ d hd

/-- What is read through a delimiter holds it at the end only, or is all there is. -/
theorem through_eq (closing : Char) (cs : List Char) : ∃ body, closing ∉ body ∧
    (through closing cs = (body, []) ∨ (through closing cs).1 = body ++ [closing]) := by
  induction cs with
  | nil => exact ⟨[], by simp, .inl rfl⟩
  | cons c cs ih =>
      rw [through]
      split
      · rename_i hc
        exact ⟨[], by simp, .inr (by simp [hc])⟩
      · rename_i hc
        obtain ⟨body, hbody, htext⟩ := ih
        refine ⟨c :: body, ?_, ?_⟩
        · rw [List.mem_cons, not_or]
          exact ⟨fun heq => hc heq.symm, hbody⟩
        · rcases htext with htext | htext <;> rw [htext]
          · exact .inl rfl
          · exact .inr rfl

theorem delimited_through (opening closing : Char) (cs : List Char) :
    Delimited opening closing (opening :: (through closing cs).1) := by
  obtain ⟨body, hbody, htext | htext⟩ := through_eq closing cs
  · exact ⟨body, hbody, .inl (by rw [htext])⟩
  · exact ⟨body, hbody, .inr (by rw [htext])⟩

/-- A scanned piece has a text that goes with its kind. -/
theorem wellShaped_scanFrom (c : Char) (cs : List Char) :
    WellShaped ⟨(scanFrom c cs).1, c :: (scanFrom c cs).2.1⟩ := by
  let Good (r : TokenKind × List Char × List Char) : Prop := WellShaped ⟨r.1, c :: r.2.1⟩
  change Good (scanFrom c cs)
  unfold scanFrom
  refine iteInduction (fun _ => trivial) fun _ => ?_
  refine iteInduction (fun _ => trivial) fun _ => ?_
  refine iteInduction (fun hc => ?_) fun _ => ?_
  · exact ⟨_, by rw [hc], staysOnLine_codeRun false cs⟩
  refine iteInduction (fun _ => trivial) fun _ => ?_
  refine iteInduction (fun _ => trivial) fun _ => ?_
  refine iteInduction (fun hc => ?_) fun _ => ?_
  · subst hc
    exact delimited_through '[' ']' cs
  refine iteInduction (fun hc => ?_) fun _ => ?_
  · subst hc
    exact delimited_through '"' '"' cs
  refine iteInduction (fun _ => trivial) fun _ => ?_
  refine iteInduction (fun _ => trivial) fun _ => ?_
  refine iteInduction (fun _ => trivial) fun _ => ?_
  refine iteInduction (fun _ => trivial) fun _ => ?_
  refine iteInduction (fun halpha => ?_) fun _ => trivial
  refine iteInduction (fun hword => ?_) fun hword => ?_
  · refine ⟨(codeRun false (cs.dropWhile isWordChar)).1, ?_, staysOnLine_codeRun false _⟩
    rw [← hword]
    rfl
  · exact ⟨⟨c, _, rfl, halpha, fun d hd => List.mem_takeWhile_imp hd⟩, hword⟩

/-- Every piece of a source has a text that goes with its kind. -/
theorem wellShaped_of_mem_all {source : List Char} {p : Piece} (hp : p ∈ all source) :
    p.WellShaped := by
  refine of_mem_all (fun cs p rest hscan => ?_) hp
  obtain ⟨c, tail, -, -, rfl, -⟩ := exists_scanFrom_of_scan? hscan
  exact wellShaped_scanFrom c tail

end Piece

end DialogScript
