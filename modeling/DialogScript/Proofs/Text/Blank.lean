import DialogScript.Text.Blank
import Mathlib.Data.List.DropRight

/-!
# Trimmed texts

Trimming takes blanks from the ends of a text and nothing else: it can be done again without effect,
a blank put to an end is taken off, and every character that is not blank stays.

## Main results

* `trimEnd_trimEnd`, `trim_trim`: trimming twice
* `trimEnd_concat`, `trim_cons`: trimming a text with a blank at its end or front
* `countP_trimEnd`, `countP_trim`: what is not blank stays
-/

namespace DialogScript

theorem trimEnd_trimEnd (cs : List Char) : trimEnd (trimEnd cs) = trimEnd cs :=
  List.rdropWhile_idempotent isBlank cs

theorem trimEnd_concat {c : Char} (hc : isBlank c = true) (cs : List Char) :
    trimEnd (cs ++ [c]) = trimEnd cs :=
  List.rdropWhile_concat_pos isBlank cs c hc

theorem prefix_trimEnd (cs : List Char) : trimEnd cs <+: cs := List.rdropWhile_prefix isBlank cs

theorem mem_of_mem_trim {c : Char} {cs : List Char} (hc : c ∈ trim cs) : c ∈ cs :=
  (List.dropWhile_sublist isBlank).subset ((prefix_trimEnd (trimStart cs)).subset hc)

theorem trim_cons {c : Char} (hc : isBlank c = true) (cs : List Char) :
    trim (c :: cs) = trim cs := by
  rw [trim, trim, trimStart, List.dropWhile_cons_of_pos hc, trimStart]

theorem trim_concat {c : Char} (hc : isBlank c = true) (cs : List Char) :
    trim (cs ++ [c]) = trim cs := by
  rw [trim, trim, trimStart, List.dropWhile_append]
  split
  · rename_i hempty
    rw [trimStart, List.isEmpty_iff.mp hempty, List.dropWhile_cons_of_pos hc, List.dropWhile_nil]
  · exact trimEnd_concat hc _

/-- A text without leading blanks has none either when its end has been trimmed. -/
theorem trimStart_trimEnd {cs : List Char} (hcs : trimStart cs = cs) :
    trimStart (trimEnd cs) = trimEnd cs := by
  obtain ⟨rest, hrest⟩ := prefix_trimEnd cs
  cases htrim : trimEnd cs with
  | nil => rfl
  | cons c tail =>
      rw [htrim, List.cons_append] at hrest
      rw [← hrest] at hcs
      have hc : ¬isBlank c = true := by
        intro hc
        rw [trimStart, List.dropWhile_cons_of_pos hc] at hcs
        have hlength := (List.dropWhile_sublist isBlank (l := tail ++ rest)).length_le
        rw [hcs, List.length_cons] at hlength
        omega
      rw [trimStart, List.dropWhile_cons_of_neg hc]

theorem trim_trim (cs : List Char) : trim (trim cs) = trim cs := by
  have hstart : trimStart (trimStart cs) = trimStart cs := List.dropWhile_idempotent isBlank cs
  rw [trim, trim, trimStart_trimEnd hstart, trimEnd_trimEnd]

/-- Every character that is not blank stays. -/
theorem countP_dropWhile_isBlank (cs : List Char) :
    (cs.dropWhile isBlank).countP (!isBlank ·) = cs.countP (!isBlank ·) := by
  induction cs with
  | nil => rfl
  | cons c cs ih =>
      cases hc : isBlank c with
      | false => rw [List.dropWhile_cons_of_neg (by simp [hc])]
      | true => rw [List.dropWhile_cons_of_pos hc, ih, List.countP_cons_of_neg (by simp [hc])]

theorem countP_trimEnd (cs : List Char) :
    (trimEnd cs).countP (!isBlank ·) = cs.countP (!isBlank ·) := by
  rw [trimEnd, List.countP_reverse, countP_dropWhile_isBlank, List.countP_reverse]

theorem countP_trim (cs : List Char) : (trim cs).countP (!isBlank ·) = cs.countP (!isBlank ·) := by
  rw [trim, countP_trimEnd, trimStart, countP_dropWhile_isBlank]

end DialogScript
