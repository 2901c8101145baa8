import DialogScript.Proofs.Script.WellFormed

/-!
# What clauses are read from

A clause is read from the lexemes at the front of a source, and the lexemes behind it are left over
as they stand. There are four ways to read one: as the head of a label, as a statement with the
conditions behind it, as a lexeme that begins no statement, or as a stray line. So the statements of
a script are read at suffixes of the lexemes of its source, and its conditions are some of them, in
order.

## Main definitions

* `Clause.LeavesEnd`: what a reading leaves over are the last lexemes
* `Clause.Took`, `Clause.TookAll`: how a clause, and how all clauses, are read

## Main results

* `Clause.took_of_read`, `Clause.tookAll_of_all`: clauses are read in one of the ways
* `Clause.Took.suffix`: what a clause leaves over
* `Clause.TookAll.conditions_eq`: the conditions of clauses are lexemes, in order
* `Clause.TookAll.exists_instruction?`: where the instruction of a statement is read
-/

namespace DialogScript

namespace Clause

variable {α β : Type} {l : Lexeme} {ls rest : List Lexeme}

/-- What the reading leaves over are the last of the lexemes `ls`. -/
def LeavesEnd (ls : List Lexeme) (x : Except Failure (α × List Lexeme)) : Prop :=
  ∀ a rest, x = .ok (a, rest) → rest <:+ ls

theorem LeavesEnd.pure (a : α) (ls : List Lexeme) : LeavesEnd ls (.ok (a, ls)) := by
  rintro b rest hread
  obtain ⟨-, rfl⟩ := Prod.mk.inj (Except.ok.inj hread)
  exact List.suffix_rfl

theorem LeavesEnd.mono {x : Except Failure (α × List Lexeme)} (hx : LeavesEnd rest x)
    (hrest : rest <:+ ls) : LeavesEnd ls x :=
  fun a left hread => (hx a left hread).trans hrest

theorem LeavesEnd.bind {x : Except Failure (α × List Lexeme)}
    {k : α × List Lexeme → Except Failure (β × List Lexeme)} (hx : LeavesEnd ls x)
    (hk : ∀ a rest, LeavesEnd rest (k (a, rest))) : LeavesEnd ls (x >>= k) := by
  intro b rest hread
  obtain ⟨⟨a, after⟩, hfirst, hread⟩ := ok_of_bind hread
  exact (hk a after b rest hread).trans (hx a after hfirst)

theorem leavesEnd_expect (kind : TokenKind) (e : Expectation) (anchor : Lexeme)
    (ls : List Lexeme) : LeavesEnd ls (expect kind e anchor ls) := by
  intro l rest hread
  obtain ⟨rfl, -⟩ := of_expect hread
  exact List.suffix_cons l rest

theorem leavesEnd_target (anchor : Lexeme) (ls : List Lexeme) :
    LeavesEnd ls (target anchor ls) :=
  (leavesEnd_expect _ _ _ _).bind fun _ _ =>
    (leavesEnd_expect _ _ _ _).bind fun _ _ => .pure _ _

theorem suffix_argument (keyword : Lexeme) (ls : List Lexeme) :
    (argument keyword ls).2 <:+ ls := by
  cases ls with
  | nil => exact List.suffix_rfl
  | cons m ms =>
      rw [argument]
      split
      · exact List.suffix_cons m ms
      · exact List.suffix_rfl

theorem leavesEnd_numeral (read? : List Char → Option α) (e : Expectation) (keyword : Lexeme)
    (ls : List Lexeme) : LeavesEnd ls (numeral read? e keyword ls) := by
  refine (leavesEnd_expect _ _ _ _).bind fun number rest => ?_
  dsimp only
  split
  · exact .pure _ _
  · exact fun _ _ hread => by cases hread

theorem leavesEnd_keyword (k : Keyword) (w : Lexeme) (ls : List Lexeme) :
    LeavesEnd ls (keyword k w ls) := by
  cases k with
  | shutUp => exact .pure _ _
  | pause | limit => exact (leavesEnd_numeral _ _ _ _).bind fun _ _ => .pure _ _
  | waitFor | parrot | dialog | override | allowObjects =>
      exact (LeavesEnd.pure _ _).mono (suffix_argument w ls)

theorem leavesEnd_command (w : Lexeme) (ls : List Lexeme) :
    LeavesEnd ls (word.command w ls) := by
  rw [word.command]
  split
  · exact leavesEnd_keyword _ _ _
  · exact fun _ _ hread => by cases hread

theorem leavesEnd_word (w : Lexeme) (ls : List Lexeme) : LeavesEnd ls (word w ls) := by
  rw [word.eq_def]
  split
  · split
    · refine LeavesEnd.mono ?_ (List.suffix_cons _ _)
      exact (leavesEnd_expect _ _ _ _).bind fun _ _ => .pure _ _
    · exact leavesEnd_command _ _
  · exact leavesEnd_command _ _

theorem suffix_passColon (number : Lexeme) (ls : List Lexeme) : passColon number ls <:+ ls := by
  cases ls with
  | nil => exact List.suffix_rfl
  | cons m ms =>
      rw [passColon]
      split
      · exact List.suffix_cons m ms
      · exact List.suffix_rfl

theorem leavesEnd_choiceText (number : Lexeme) (ls : List Lexeme) :
    LeavesEnd ls (choiceText number ls) := by
  cases ls with
  | nil => exact fun _ _ hread => by cases hread
  | cons m ms =>
      rw [choiceText]
      split
      · exact (LeavesEnd.pure _ _).mono (List.suffix_cons m ms)
      · split
        · exact (LeavesEnd.pure _ _).mono (List.suffix_cons m ms)
        · exact fun _ _ hread => by cases hread

theorem leavesEnd_choice (number : Lexeme) (ls : List Lexeme) :
    LeavesEnd ls (choice number ls) := by
  rw [choice]
  split
  · exact fun _ _ hread => by cases hread
  · exact ((leavesEnd_choiceText _ _).mono (suffix_passColon number ls)).bind fun _ _ =>
      (leavesEnd_target _ _).bind fun _ _ => .pure _ _

theorem suffix_of_instruction? {i : Instruction} (h : instruction? l ls = some (.ok (i, rest))) :
    rest <:+ l :: ls := by
  have hls := List.suffix_cons l ls
  rw [instruction?] at h
  split at h
  · exact (leavesEnd_word l ls i rest (Option.some.inj h)).trans hls
  · exact (leavesEnd_choice l ls i rest (Option.some.inj h)).trans hls
  · obtain ⟨⟨name, after⟩, hname, h⟩ := ok_of_bind (Option.some.inj h)
    obtain ⟨-, rfl⟩ := Prod.mk.inj (Except.ok.inj h)
    exact leavesEnd_target l (l :: ls) name after hname
  · exact (LeavesEnd.pure _ _ i rest (Option.some.inj h)).trans hls
  · exact (LeavesEnd.pure _ _ i rest (Option.some.inj h)).trans hls
  · cases h

/-! ### The kinds of clauses -/

/-- The ways in which a clause that begins with a lexeme is read from the lexemes behind it. -/
inductive Took (l : Lexeme) : List Lexeme → Clause → List Lexeme → Prop
  | label {name : Lexeme} (hname : name.kind = .word) (ls : List Lexeme) :
      Took l (name :: ls) (.label name.string) ls
  | statement {ls after : List Lexeme} {i : Instruction}
      (hread : instruction? l ls = some (.ok (i, after))) :
      Took l ls (.statement ⟨i, (conditions after).1⟩) (conditions after).2
  | skipped (ls : List Lexeme) : Took l ls (.skipped l) ls
  | stray (ls : List Lexeme) : Took l ls (.stray l) (ls.dropWhile (·.line = l.line))

variable {opened : Bool} {c : Clause} {cs : List Clause}

theorem took_of_head (h : head l ls = .ok (c, rest)) : Took l ls c rest := by
  obtain ⟨⟨name, after⟩, hname, h⟩ := ok_of_bind h
  obtain ⟨rfl, rfl⟩ := Prod.mk.inj (Except.ok.inj h)
  obtain ⟨rfl, hkind⟩ := of_expect hname
  exact .label hkind _

theorem took_of_inner (h : inner l ls = .ok (c, rest)) : Took l ls c rest := by
  rw [inner] at h
  split at h
  · obtain ⟨rfl, rfl⟩ := Prod.mk.inj (Except.ok.inj h)
    exact .skipped ls
  · rename_i reading hfound
    obtain ⟨⟨i, after⟩, rfl, h⟩ := ok_of_bind h
    obtain ⟨rfl, rfl⟩ := Prod.mk.inj (Except.ok.inj h)
    exact .statement hfound

/-- A clause is read in one of the ways. -/
theorem took_of_read (h : read opened l ls = .ok (c, rest)) : Took l ls c rest := by
  have hstray (h : strayLine l ls = .ok (c, rest)) : Took l ls c rest := by
    obtain ⟨rfl, rfl⟩ := Prod.mk.inj (Except.ok.inj h)
    exact .stray ls
  unfold read at h
  split at h
  · exact took_of_head h
  · exact took_of_inner h
  · split at h
    · rename_i result hfound
      exact took_of_head (hfound.trans h)
    · exact hstray h
  · exact hstray h

/-- What is left over after a clause are the last of the lexemes. -/
theorem Took.suffix (h : Took l ls c rest) : rest <:+ l :: ls := by
  cases h with
  | label hname => exact (List.suffix_cons _ _).trans (List.suffix_cons _ _)
  | statement hread => exact (List.dropWhile_suffix _).trans (suffix_of_instruction? hread)
  | skipped => exact List.suffix_cons _ _
  | stray => exact (List.dropWhile_suffix _).trans (List.suffix_cons _ _)

/-! ### All clauses -/

/-- What holds of no lexemes, and of lexemes if it holds of those behind the first clause, holds of
all lexemes. -/
theorem all_induct {motive : Bool → List Lexeme → Prop} (nil : ∀ opened, motive opened [])
    (cons : ∀ opened l ls, (∀ c rest, read opened l ls = .ok (c, rest) →
      motive (opened || c.isLabel) rest) → motive opened (l :: ls))
    (opened : Bool) (ls : List Lexeme) : motive opened ls := by
  induction hn : ls.length using Nat.strongRecOn generalizing opened ls with
  | _ n ih =>
      cases ls with
      | nil => exact nil opened
      | cons l ls =>
          refine cons opened l ls fun c rest hread => ih _ ?_ _ rest rfl
          exact hn ▸ Nat.lt_succ_of_le (length_le_of_read hread)

/-- The clauses that are read from lexemes, one behind the other. -/
inductive TookAll : List Lexeme → List Clause → Prop
  | nil : TookAll [] []
  | cons {l : Lexeme} {ls rest : List Lexeme} {c : Clause} {cs : List Clause}
      (hfirst : Took l ls c rest) (hrest : TookAll rest cs) : TookAll (l :: ls) (c :: cs)

theorem tookAll_of_all (hall : all opened ls = .ok cs) : TookAll ls cs := by
  induction opened, ls using all_induct generalizing cs with
  | nil opened =>
      obtain rfl := Except.ok.inj hall
      exact .nil
  | cons opened l ls ih =>
      rw [all_cons] at hall
      obtain ⟨⟨c, rest⟩, hread, h⟩ := ok_of_bind hall
      obtain ⟨cs', hrest, h⟩ := ok_of_bind h
      obtain rfl := Except.ok.inj h
      exact .cons (took_of_read hread) (ih c rest hread hrest)

/-- The conditions of a clause. -/
def ownConditions : Clause → List Condition
  | statement s => s.conditions
  | _ => []

/-- The conditions of a clause are condition lexemes that it takes, in order. -/
theorem Took.conditions_eq (h : Took l ls c rest) : ∃ taken, (taken ++ rest).Sublist (l :: ls) ∧
    (∀ k ∈ taken, k.kind = .condition) ∧ c.ownConditions = taken.map Condition.ofLexeme := by
  have hsuffix := h.suffix
  cases h with
  | @statement _ after i hread =>
      refine ⟨after.takeWhile (·.kind = .condition), ?_, fun k hk => ?_, rfl⟩
      · rw [conditions, List.takeWhile_append_dropWhile]
        exact (suffix_of_instruction? hread).sublist
      · exact of_decide_eq_true
          (List.mem_takeWhile_imp (p := fun k : Lexeme => decide (k.kind = .condition)) hk)
  | label | skipped | stray =>
      exact ⟨[], hsuffix.sublist, fun _ hk => absurd hk List.not_mem_nil, rfl⟩

/-- The conditions of clauses are some of the condition lexemes they are read from, in order. -/
theorem TookAll.conditions_eq (h : TookAll ls cs) : ∃ taken : List Lexeme, taken.Sublist ls ∧
    (∀ k ∈ taken, k.kind = .condition) ∧
      cs.flatMap ownConditions = taken.map Condition.ofLexeme := by
  induction h with
  | nil => exact ⟨[], .slnil, fun _ hk => absurd hk List.not_mem_nil, rfl⟩
  | cons hfirst _ ih =>
      obtain ⟨taken, htaken, hkind, hown⟩ := hfirst.conditions_eq
      obtain ⟨behind, hbehind, hkinds, hconditions⟩ := ih
      refine ⟨taken ++ behind, ((List.Sublist.refl taken).append hbehind).trans htaken,
        List.forall_mem_append.mpr ⟨hkind, hkinds⟩, ?_⟩
      rw [List.flatMap_cons, hown, hconditions, List.map_append]

/-- Each statement among the clauses was read from a lexeme and those behind it. -/
theorem TookAll.exists_instruction? (h : TookAll ls cs) {s : Statement}
    (hs : .statement s ∈ cs) : ∃ l behind after, l :: behind <:+ ls ∧
      instruction? l behind = some (.ok (s.instruction, after)) := by
  induction h with
  | nil => exact absurd hs List.not_mem_nil
  | cons hfirst _ ih =>
      rcases List.mem_cons.mp hs with rfl | hs
      · cases hfirst with
        | statement hread => exact ⟨_, _, _, List.suffix_rfl, hread⟩
      · obtain ⟨k, behind, after, hsuffix, hread⟩ := ih hs
        exact ⟨k, behind, after, hsuffix.trans hfirst.suffix, hread⟩

end Clause

/-- What the statements of clauses have is what those of their labels have, in order. -/
theorem flatMap_gather {α : Type} (f : Statement → List α) (cs : List Clause) :
    (gather cs).1.flatMap f ++ (gather cs).2.flatMap (fun l => l.statements.flatMap f) =
      cs.flatMap fun c => match c with
        | .statement s => f s
        | _ => [] := by
  induction cs with
  | nil => rfl
  | cons c cs ih =>
      rw [List.flatMap_cons, ← ih]
      cases c with
      | label name => rfl
      | statement s => exact List.append_assoc _ _ _
      | skipped | stray => rfl

end DialogScript
