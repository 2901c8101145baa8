import DialogScript.Proofs.Text.Span

/-!
# Lines behind whole lines

A text behind whole lines has its own lines: a position in it has the column and the line text that
it has without them, and a line number that is larger by the number of line feeds before.

## Main definitions

* `later`: the number of a line some lines further on
* `EndsLine`: the text ends with a line feed, if it has characters

## Main results

* `later_saturated`: the number of a line counts the line feeds before it
* `columnAt?_append`, `lineTextAt_append`: columns and line texts behind whole lines
-/

namespace DialogScript

/-! ### Numbers of lines -/

theorem toNat_saturated (n : Nat) : (saturated n).toNat = min n 4294967295 :=
  UInt32.toNat_ofNat_of_lt' (by rw [UInt32.size]; omega)

/-- The number of the line `n` lines after a line. It stays at the largest number. -/
def later (n : Nat) (line : UInt32) : UInt32 := saturated (line.toNat + n)

theorem toNat_later {n : Nat} {line : UInt32} (hline : line.toNat + n ≤ 4294967295) :
    (later n line).toNat = line.toNat + n := by
  rw [later, toNat_saturated, Nat.min_eq_left hline]

/-- Numbers that have room above them grow without bound. -/
theorem later_eq_add {n : Nat} {line : UInt32} (hline : line.toNat + n ≤ 4294967295) :
    later n line = line + UInt32.ofNat n := by
  rw [← UInt32.toNat_inj, toNat_later hline, UInt32.toNat_add,
    UInt32.toNat_ofNat_of_lt' (by rw [UInt32.size]; omega), Nat.mod_eq_of_lt (by omega)]

theorem later_saturated (n k : Nat) : later n (saturated k) = saturated (k + n) := by
  rw [← UInt32.toNat_inj, later, toNat_saturated, toNat_saturated, toNat_saturated]
  omega

/-! ### Positions -/

theorem upTo_append_add (cs ds : List Char) (o : Nat) :
    upTo (cs ++ ds) (utf8Length cs + o) = cs ++ upTo ds o := by
  induction cs with
  | nil => rw [utf8Length, Nat.zero_add, List.nil_append, List.nil_append]
  | cons c cs ih =>
      obtain ⟨k, hk⟩ := Nat.exists_eq_succ_of_ne_zero
        (Nat.ne_of_gt (Nat.add_pos_left c.utf8Size_pos (utf8Length cs + o)))
      have hrest : k + 1 - c.utf8Size = utf8Length cs + o := by omega
      rw [utf8Length, Nat.add_assoc, hk, List.cons_append, upTo, hrest, ih, List.cons_append]

theorem upTo_zero (cs : List Char) : upTo cs 0 = [] := by cases cs <;> rfl

/-- An offset parts a text in two parts as it parts each of them. -/
theorem upTo_append (cs ds : List Char) (o : Nat) :
    upTo (cs ++ ds) o = upTo cs o ++ upTo ds (o - utf8Length cs) := by
  induction cs generalizing o with
  | nil => rfl
  | cons c cs ih =>
      cases o with
      | zero => rw [upTo_zero, upTo_zero, Nat.zero_sub, upTo_zero, List.append_nil]
      | succ o =>
          have hrest : o + 1 - c.utf8Size - utf8Length cs = o + 1 - utf8Length (c :: cs) :=
            Nat.sub_sub _ _ _
          rw [List.cons_append, upTo, upTo, ih, hrest, List.cons_append]

theorem startingAt_append_add (cs ds : List Char) (o : Nat) :
    startingAt (cs ++ ds) (utf8Length cs + o) = startingAt ds o := by
  have hparts := upTo_append_startingAt (cs ++ ds) (utf8Length cs + o)
  rw [upTo_append_add, List.append_assoc] at hparts
  exact List.append_cancel_left
    ((List.append_cancel_left hparts).trans (upTo_append_startingAt ds o).symm)

/-- What begins a text and is no longer than another part that does begins that one. -/
theorem exists_eq_append_of_le {cs ds cs' ds' : List Char} (hparts : cs ++ ds = cs' ++ ds')
    (hle : utf8Length cs ≤ utf8Length cs') : ∃ more, cs' = cs ++ more := by
  rcases List.append_eq_append_iff.mp hparts with ⟨more, hcs', -⟩ | ⟨more, hcs, -⟩
  · exact ⟨more, hcs'⟩
  · rw [hcs, utf8Length_append] at hle
    have hmore : more = [] := utf8Length_eq_zero.mp (by omega)
    exact ⟨[], by rw [hcs, hmore, List.append_nil, List.append_nil]⟩

theorem isBoundary_append_add_iff (cs ds : List Char) (o : Nat) :
    IsBoundary (cs ++ ds) (utf8Length cs + o) ↔ IsBoundary ds o := by
  rw [IsBoundary, IsBoundary, upTo_append_add, utf8Length_append, utf8Length_append]
  omega

/-- The column of the end of a part. -/
theorem columnAt?_append_utf8Length (cs ds : List Char) :
    columnAt? (cs ++ ds) (utf8Length cs) = some (saturated ((lastLine cs).length + 1)) := by
  rw [columnAt?, if_pos (isBoundary_append cs ds), upTo_append_utf8Length]

/-- The line that holds the end of a part. -/
theorem lineTextAt_append_utf8Length (cs ds : List Char) :
    lineTextAt (cs ++ ds) (utf8Length cs) = lastLine cs ++ firstLine ds := by
  rw [lineTextAt, upTo_append_utf8Length, startingAt_append_utf8Length]

/-- The first line of a text that has a whole line is that line. -/
theorem firstLine_append {cs : List Char} (hcs : '\n' ∈ cs) (ds : List Char) :
    firstLine (cs ++ ds) = firstLine cs := by
  induction cs with
  | nil => cases hcs
  | cons c cs ih =>
      by_cases hc : c = '\n'
      · subst hc
        rfl
      · have hrest := ih ((List.mem_cons.mp hcs).resolve_left (Ne.symm hc))
        have hcons (cs : List Char) : firstLine (c :: cs) = c :: firstLine cs :=
          List.takeWhile_cons_of_pos (decide_eq_true hc)
        rw [List.cons_append, hcons, hcons, hrest]

/-- The text ends with a line feed, if it has characters. -/
def EndsLine (cs : List Char) : Prop := ∀ c ∈ cs.getLast?, c = '\n'

theorem endsLine_append {ds : List Char} (hds : ds.getLast? = some '\n') (cs : List Char) :
    EndsLine (cs ++ ds) := by
  intro c hc
  rw [List.getLast?_append, hds] at hc
  exact (Option.some.inj hc).symm

theorem EndsLine.of_append {cs ds : List Char} (h : EndsLine (cs ++ ds)) : EndsLine ds := by
  intro c hc
  refine h c ?_
  rw [List.getLast?_append, Option.mem_def.mp hc]
  rfl

theorem EndsLine.getLast?_eq {cs : List Char} (h : EndsLine cs) (hcs : cs ≠ []) :
    cs.getLast? = some '\n' := by
  obtain ⟨init, c, rfl⟩ := (List.eq_nil_or_concat cs).resolve_left hcs
  rw [h c (by simp)]
  simp

variable {cs : List Char}

/-- The last line of a text behind whole lines lies in that text. -/
theorem lastLine_append (hcs : EndsLine cs) (ds : List Char) :
    lastLine (cs ++ ds) = lastLine ds := by
  have hstop : cs.reverse.takeWhile (· ≠ '\n') = [] := by
    rcases List.eq_nil_or_concat cs with rfl | ⟨init, c, rfl⟩
    · rfl
    · obtain rfl : c = '\n' := hcs c (by simp)
      simp
  rw [lastLine, lastLine, List.reverse_append, List.takeWhile_append, hstop, List.append_nil]
  split
  · rename_i hlength
    rw [(List.takeWhile_sublist _).eq_of_length hlength]
  · rfl

theorem columnAt?_append (hcs : EndsLine cs) (ds : List Char) (o : Nat) :
    columnAt? (cs ++ ds) (utf8Length cs + o) = columnAt? ds o := by
  rw [columnAt?, columnAt?, upTo_append_add, lastLine_append hcs]
  exact if_congr (isBoundary_append_add_iff cs ds o) rfl rfl

theorem lineTextAt_append (hcs : EndsLine cs) (ds : List Char) (o : Nat) :
    lineTextAt (cs ++ ds) (utf8Length cs + o) = lineTextAt ds o := by
  rw [lineTextAt, lineTextAt, upTo_append_add, startingAt_append_add, lastLine_append hcs]

end DialogScript
