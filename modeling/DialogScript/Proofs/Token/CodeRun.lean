import DialogScript.Proofs.Text.Blank
import DialogScript.Proofs.Token.Shape

/-!
# Where a run of code ends

A run of code goes on to the end of its line unless a bracket behind a space begins the conditions.
A bracket that a space follows begins none. So what is taken back in as a run of code is the code
that was written out only if its brackets are told apart from those of the conditions: a bracket of
the code that stands behind a space must stand before one, and the bracket of the conditions must
not.

## Main definitions

* `SpacedBrackets`: the brackets behind a space stand before one
* `Piece.EndsRun`: a run of code ends before a text
* `CodeBody`: a text is a run of code with a text behind it

## Main results

* `Piece.codeRun_append_of_spacedBrackets`: a run goes on behind a text with spaced brackets
* `Piece.codeRun_of_not_spacedBrackets`: and stops inside any other text
* `codeBody_codeRun`, `CodeBody.codeRun_append`: the runs are the bodies
-/

namespace DialogScript

/-- Every bracket behind a space stands before a space. `spaced` tells whether a space stands before
the text. -/
def SpacedBrackets (spaced : Bool) : List Char → Prop
  | [] => True
  | c :: cs => (spaced = true → c = '[' → cs.head? = some ' ') ∧ SpacedBrackets (c = ' ') cs

instance SpacedBrackets.decidable (spaced : Bool) (cs : List Char) :
    Decidable (SpacedBrackets spaced cs) :=
  match cs with
  | [] => inferInstanceAs (Decidable True)
  | c :: cs =>
    let _ := SpacedBrackets.decidable (c = ' ') cs
    inferInstanceAs (Decidable (_ ∧ _))

namespace Piece

/-- Whether a space stands before what follows a text. -/
def spacedBehind (spaced : Bool) (cs : List Char) : Bool := cs.foldl (fun _ c => c = ' ') spaced

theorem codeRun_cons {spaced : Bool} {c : Char} {cs : List Char} (hline : c ≠ '\n' ∧ c ≠ nul)
    (hbracket : spaced = true → c = '[' → cs.head? = some ' ') :
    codeRun spaced (c :: cs) = (c :: (codeRun (c = ' ') cs).1, (codeRun (c = ' ') cs).2) := by
  rw [codeRun, if_neg (not_or.mpr hline), if_neg]
  rintro ⟨hspaced, hc, hhead⟩
  exact hhead (hbracket hspaced hc)

/-- A run goes on behind a text whose brackets are spaced. -/
theorem codeRun_append_of_spacedBrackets {spaced : Bool} {cs : List Char} (hline : StaysOnLine cs)
    (hbrackets : SpacedBrackets spaced cs) (rest : List Char) :
    codeRun spaced (cs ++ rest) = (cs ++ (codeRun (spacedBehind spaced cs) rest).1,
      (codeRun (spacedBehind spaced cs) rest).2) := by
  induction cs generalizing spaced with
  | nil => rfl
  | cons c cs ih =>
      obtain ⟨hbracket, hbrackets⟩ := hbrackets
      have hline' : StaysOnLine cs := fun d hd => hline d (List.mem_cons_of_mem c hd)
      have hhead : spaced = true → c = '[' → (cs ++ rest).head? = some ' ' := by
        intro hspaced hc
        have := hbracket hspaced hc
        rw [List.head?_append, this]
        rfl
      rw [List.cons_append, codeRun_cons (hline c List.mem_cons_self) hhead, ih hline' hbrackets]
      rfl

/-- A run stops inside a text whose brackets are not all spaced. -/
theorem codeRun_of_not_spacedBrackets {spaced : Bool} {cs rest : List Char}
    (hline : StaysOnLine cs) (hbrackets : ¬SpacedBrackets spaced cs)
    (hrest : rest.head? ≠ some ' ') :
    ∃ before after, cs = before ++ '[' :: after ∧ (codeRun spaced (cs ++ rest)).1 = before := by
  induction cs generalizing spaced with
  | nil => exact absurd trivial hbrackets
  | cons c cs ih =>
      have hline' : StaysOnLine cs := fun d hd => hline d (List.mem_cons_of_mem c hd)
      by_cases hbracket : spaced = true → c = '[' → (cs ++ rest).head? = some ' '
      · have hrest' : ¬SpacedBrackets (c = ' ') cs := by
          intro hspaced
          refine hbrackets ⟨fun hb hc => ?_, hspaced⟩
          have hhead := hbracket hb hc
          cases cs with
          | nil => exact absurd hhead hrest
          | cons d ds => exact hhead
        obtain ⟨before, after, rfl, hrun⟩ := ih hline' hrest'
        refine ⟨c :: before, after, rfl, ?_⟩
        rw [List.cons_append, codeRun_cons (hline c List.mem_cons_self) hbracket]
        exact congrArg (c :: ·) hrun
      · simp only [not_forall] at hbracket
        obtain ⟨hspaced, rfl, hhead⟩ := hbracket
        refine ⟨[], cs, rfl, ?_⟩
        rw [List.cons_append, codeRun, if_neg (by decide), if_pos ⟨hspaced, rfl, hhead⟩]

theorem codeRun_feed (spaced : Bool) (rest : List Char) :
    codeRun spaced ('\n' :: rest) = ([], '\n' :: rest) := by
  rw [codeRun, if_pos (.inl rfl)]

/-- A bracket behind a space ends a run. -/
theorem codeRun_bracket {rest : List Char} (hrest : rest.head? ≠ some ' ') :
    codeRun true ('[' :: rest) = ([], '[' :: rest) := by
  rw [codeRun, if_neg (by decide), if_pos ⟨rfl, rfl, hrest⟩]

/-- A bracket before a space does not. -/
theorem codeRun_bracket_space {rest : List Char} (hrest : rest.head? = some ' ') (spaced : Bool) :
    ∃ more, (codeRun spaced ('[' :: rest)).1 = '[' :: more := by
  rw [codeRun_cons (by decide) fun _ _ => hrest]
  exact ⟨_, rfl⟩

/-! ### Runs as bodies of code -/

/-- A run of code ends before `rest`: at the end of the source, before a line feed or a NUL, or, if
it stands behind a space, before a bracket that no space follows. -/
def EndsRun (spaced : Prop) (rest : List Char) : Prop :=
  rest = [] ∨ rest.head? = some '\n' ∨ rest.head? = some nul ∨
    spaced ∧ ∃ after, rest = '[' :: after ∧ after.head? ≠ some ' '

theorem codeRun_of_endsRun {spaced : Bool} {rest : List Char}
    (hrest : EndsRun (spaced = true) rest) : codeRun spaced rest = ([], rest) := by
  cases rest with
  | nil => rfl
  | cons c cs =>
      rcases hrest with hnil | hfeed | hnul | ⟨rfl, after, hcons, hafter⟩
      · cases hnil
      · rw [codeRun, if_pos (.inl (Option.some.inj hfeed))]
      · rw [codeRun, if_pos (.inr (Option.some.inj hnul))]
      · rw [hcons]
        exact codeRun_bracket hafter

theorem spacedBrackets_codeRun (spaced : Bool) (cs : List Char) :
    SpacedBrackets spaced (codeRun spaced cs).1 := by
  induction cs generalizing spaced with
  | nil => trivial
  | cons c cs ih =>
      rw [codeRun]
      split
      · trivial
      · split
        · trivial
        · rename_i hbracket
          refine ⟨fun hspaced hc => ?_, ih _⟩
          have hhead : cs.head? = some ' ' := by
            by_contra hhead
            exact hbracket ⟨hspaced, hc, hhead⟩
          obtain ⟨ds, rfl⟩ := List.head?_eq_some_iff.mp hhead
          rw [codeRun_cons (by decide) fun _ hd => absurd hd (by decide)]
          rfl

theorem endsRun_codeRun (spaced : Bool) (cs : List Char) :
    EndsRun (spacedBehind spaced (codeRun spaced cs).1 = true) (codeRun spaced cs).2 := by
  induction cs generalizing spaced with
  | nil => exact .inl rfl
  | cons c cs ih =>
      rw [codeRun]
      split
      · rename_i hline
        rcases hline with rfl | rfl
        · exact .inr (.inl rfl)
        · exact .inr (.inr (.inl rfl))
      · split
        · rename_i hbracket
          obtain ⟨hspaced, rfl, hhead⟩ := hbracket
          exact .inr (.inr (.inr ⟨hspaced, cs, rfl, hhead⟩))
        · exact ih _

theorem spacedBehind_eq_true_iff {cs : List Char} :
    spacedBehind false cs = true ↔ cs.getLast? = some ' ' := by
  rcases List.eq_nil_or_concat cs with rfl | ⟨ds, d, rfl⟩
  · simp [spacedBehind]
  · simp [spacedBehind]

end Piece

/-- The text is a run of code with `rest` behind it: it stays on its line, a bracket of it behind a
space stands before a space, and it does not go on in `rest`. -/
structure CodeBody (body rest : List Char) : Prop where
  line : StaysOnLine body
  brackets : SpacedBrackets false body
  ended : Piece.EndsRun (body.getLast? = some ' ') rest

/-- A run of code is a body of code. -/
theorem codeBody_codeRun (cs : List Char) :
    CodeBody (Piece.codeRun false cs).1 (Piece.codeRun false cs).2 := by
  refine ⟨Piece.staysOnLine_codeRun false cs, Piece.spacedBrackets_codeRun false cs, ?_⟩
  rw [← Piece.spacedBehind_eq_true_iff]
  exact Piece.endsRun_codeRun false cs

/-- A body of code is the run of code that begins with it. -/
theorem CodeBody.codeRun_append {body rest : List Char} (hbody : CodeBody body rest) :
    Piece.codeRun false (body ++ rest) = (body, rest) := by
  obtain ⟨hline, hbrackets, hended⟩ := hbody
  rw [← Piece.spacedBehind_eq_true_iff] at hended
  rw [Piece.codeRun_append_of_spacedBrackets hline hbrackets, Piece.codeRun_of_endsRun hended,
    List.append_nil]

end DialogScript
