import DialogScript.Proofs.Token.Joining

/-!
# The order of lexemes

A lexeme is a part of its source, and its line is told by the line feeds before it. So lines do not
decrease from lexeme to lexeme, and a lexeme that goes over its line has the next one on a later
line, until the numbers of lines end.

## Main definitions

* `Lexeme.Before`: a lexeme ends on no later line than another one starts
* `Lexeme.onLastLine`: a lexeme on the line with the largest number

## Main results

* `Lexeme.exists_eq_of_mem`: the part of a source that a lexeme is
* `pairwise_before_significant`: the lexemes of a source stand in the order of their lines
* `significant_onLastLine`: behind too many line feeds all lexemes stand on one line
-/

namespace DialogScript

/-- The lexeme `k` starts on the line on which `l` ends, or later. Numbers end at the largest
one. -/
def Lexeme.Before (l k : Lexeme) : Prop :=
  min (l.line.toNat + l.text.count '\n') 4294967295 ≤ k.line.toNat

theorem le_line_of_mem_lexemesFrom {l : Lexeme} {o n : Nat} {ps : List Piece}
    (hl : l ∈ lexemesFrom o n ps) : min (1 + n) 4294967295 ≤ l.line.toNat := by
  obtain ⟨before, p, after, -, rfl⟩ := exists_eq_of_mem_lexemesFrom hl
  rw [toNat_saturated]
  omega

/-- Each lexeme ends on no later line than the ones behind it start. -/
theorem pairwise_before_lexemesFrom (o n : Nat) (ps : List Piece) :
    (lexemesFrom o n ps).Pairwise Lexeme.Before := by
  induction ps generalizing o n with
  | nil => exact .nil
  | cons p ps ih =>
      refine List.pairwise_cons.mpr ⟨fun k hk => ?_, ih _ _⟩
      have hline := le_line_of_mem_lexemesFrom hk
      dsimp only [Lexeme.Before]
      rw [toNat_saturated]
      omega

theorem pairwise_before_significant (source : List Char) :
    (significant source).Pairwise Lexeme.Before :=
  (pairwise_before_lexemesFrom 0 0 _).filter _

theorem Lexeme.Before.line_le {l k : Lexeme} (hlk : l.Before k) : l.line ≤ k.line := by
  have hl := l.line.toNat_lt
  rw [UInt32.le_iff_toNat_le]
  rw [Before] at hlk
  omega

/-- A lexeme that goes over its line has the next one on a later line, as long as numbers grow. -/
theorem Lexeme.Before.line_eq_max {l k : Lexeme} (hlk : l.Before k) (hline : k.line = l.line)
    (hfeed : '\n' ∈ l.text) : l.line.toNat = 4294967295 := by
  have hcount := List.count_pos_iff.mpr hfeed
  have hl := l.line.toNat_lt
  rw [Before, hline] at hlk
  omega

/-! ### Where the numbers of lines end -/

/-- The lexeme `o` bytes further on, on the line with the largest number. -/
def Lexeme.onLastLine (o : Nat) (l : Lexeme) : Lexeme :=
  { l with start := o + l.start, line := 4294967295 }

theorem lexemesFrom_onLastLine {n : Nat} (hn : 4294967294 ≤ n) (o p m : Nat) (ps : List Piece) :
    lexemesFrom (o + p) (n + m) ps = (lexemesFrom p m ps).map (Lexeme.onLastLine o) := by
  induction ps generalizing p m with
  | nil => rfl
  | cons piece ps ih =>
      have hline : saturated (1 + (n + m)) = 4294967295 := by
        rw [← UInt32.toNat_inj, toNat_saturated]
        exact Nat.min_eq_right (by omega)
      rw [lexemesFrom, lexemesFrom, List.map_cons, Nat.add_assoc, Nat.add_assoc, ih, hline,
        Lexeme.onLastLine]

/-- Behind as many line feeds as there are numbers, all lexemes have the largest number. -/
theorem lexed_onLastLine {n : Nat} (hn : 4294967294 ≤ n) (o : Nat) (cs : List Char) :
    lexed o n cs = (significant cs).map (Lexeme.onLastLine o) := by
  have hlexemes := lexemesFrom_onLastLine hn o 0 0 (Piece.all cs)
  rw [Nat.add_zero, Nat.add_zero] at hlexemes
  rw [lexed, hlexemes, List.filter_map]
  rfl

theorem lexed_replicate_feed (k o n : Nat) (cs : List Char) :
    lexed o n (List.replicate k '\n' ++ cs) = lexed (o + k) (n + k) cs := by
  induction k generalizing o n with
  | zero => rfl
  | succ k ih =>
      have hsize : utf8Length ['\n'] = 1 := rfl
      rw [List.replicate_succ, List.cons_append, lexed_feed, ih, hsize, Nat.add_right_comm,
        Nat.add_right_comm n, Nat.add_assoc, Nat.add_assoc]

/-- So they have in a source that begins with so many line feeds. -/
theorem significant_onLastLine {n : Nat} (hn : 4294967294 ≤ n) (cs : List Char) :
    significant (List.replicate n '\n' ++ cs) = (significant cs).map (Lexeme.onLastLine n) := by
  rw [significant_eq, lexed_replicate_feed, Nat.zero_add, lexed_onLastLine hn]

end DialogScript
