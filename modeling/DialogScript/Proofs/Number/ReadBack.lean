import DialogScript.Number.Binary32
import DialogScript.Number.Shortest
import Mathlib.Algebra.Group.Nat.Defs
import Mathlib.Data.List.TakeWhile

/-!
# Numbers are read back from their texts

The text of a finite number names the number. The decimal that stands for a magnitude is found by
trying what reads back, save for the last resort, the exact value of the magnitude, which the
rounding leaves alone. The positional text of a decimal names a decimal that rounds to the same
magnitude.

## Main results

* `BinaryFormat.nearest_units`: a magnitude is the nearest one to its own value
* `BinaryFormat.ofDecimal_shortest`: the shortest decimal reads back
* `Decimal.exists_positional`: a positional text is made of digits and at most one point
* `IsNumber`, `Binary32.isNumber_text`: the texts of numbers
* `Binary32.read?_text`: a finite number is read back from its text
* `Numeral.int32?_ofInt32`: so is an integer
-/

namespace DialogScript

/-! ### Rounding an exact value -/

namespace BinaryFormat

variable (f : BinaryFormat)

theorem units_eq (rank : Nat) : f.units rank =
    if rank < 2 ^ f.fraction then rank
    else (2 ^ f.fraction + rank % 2 ^ f.fraction) * 2 ^ (rank / 2 ^ f.fraction - 1) := rfl

theorem nearest_eq (num den : Nat) : f.nearest num den =
    ((num * 2 ^ f.least / den).log2 - f.fraction) * 2 ^ f.fraction +
      divEven (num * 2 ^ f.least)
        (den * 2 ^ ((num * 2 ^ f.least / den).log2 - f.fraction)) := rfl

theorem ofDecimal_eq (d : Decimal) : f.ofDecimal d =
    if d.coefficient = 0 ∨ (Numeral.ofNat d.coefficient).length + d.exponent < -f.least then 0
    else if f.exponents < (Numeral.ofNat d.coefficient).length + d.exponent then f.infinity
    else if 0 ≤ d.exponent then f.nearest (d.coefficient * 10 ^ d.exponent.toNat) 1
    else f.nearest d.coefficient (10 ^ d.exponent.natAbs) := rfl

/-- A magnitude is a whole number of units below a power of two. -/
theorem units_lt {rank : Nat} (hrank : rank < f.infinity) :
    f.units rank < 2 ^ (f.fraction + f.exponents) := by
  have hpos : 0 < 2 ^ f.fraction := Nat.two_pow_pos _
  have hexponents : 0 < f.exponents := Nat.pos_of_mul_pos_right (Nat.zero_lt_of_lt hrank)
  rw [units_eq]
  split
  · rename_i hsmall
    exact Nat.lt_of_lt_of_le hsmall (Nat.pow_le_pow_right (by decide) (Nat.le_add_right _ _))
  · have hexponent : rank / 2 ^ f.fraction < f.exponents := Nat.div_lt_of_lt_mul (by
      rw [Nat.mul_comm]
      exact hrank)
    have hmantissa : 2 ^ f.fraction + rank % 2 ^ f.fraction < 2 ^ (f.fraction + 1) := by
      have := Nat.mod_lt rank hpos
      omega
    calc (2 ^ f.fraction + rank % 2 ^ f.fraction) * 2 ^ (rank / 2 ^ f.fraction - 1)
        < 2 ^ (f.fraction + 1) * 2 ^ (rank / 2 ^ f.fraction - 1) :=
          Nat.mul_lt_mul_of_pos_right hmantissa (Nat.two_pow_pos _)
      _ = 2 ^ (f.fraction + 1 + (rank / 2 ^ f.fraction - 1)) := (Nat.pow_add ..).symm
      _ ≤ 2 ^ (f.fraction + f.exponents) := Nat.pow_le_pow_right (by decide) (by omega)

theorem divEven_mul_left {num den k : Nat} (hden : 0 < den) (h : num = k * den) :
    divEven num den = k := by
  rw [divEven, h, Nat.mul_mod_left, Nat.mul_div_cancel _ hden]
  simp [hden]

/-- A magnitude is the nearest one to its own value, however the value is written. -/
theorem nearest_units {rank num den : Nat} (hden : 0 < den)
    (hvalue : num * 2 ^ f.least = f.units rank * den) : f.nearest num den = rank := by
  have hpos : 0 < 2 ^ f.fraction := Nat.two_pow_pos _
  have hscaled : num * 2 ^ f.least / den = f.units rank := by
    rw [hvalue, Nat.mul_div_cancel _ hden]
  rw [nearest_eq, hscaled, hvalue, units_eq]
  split
  · rename_i hsmall
    have hshift : rank.log2 - f.fraction = 0 := by
      rcases Nat.eq_zero_or_pos rank with rfl | hrank
      · simp
      · have := (Nat.log2_lt (Nat.ne_of_gt hrank)).mpr hsmall
        omega
    rw [hshift, Nat.pow_zero, Nat.mul_one, Nat.zero_mul, Nat.zero_add,
      divEven_mul_left hden rfl]
  · rename_i hlarge
    have hparts := Nat.div_add_mod rank (2 ^ f.fraction)
    generalize hm : rank % 2 ^ f.fraction = m at hparts ⊢
    have hmantissa : m < 2 ^ f.fraction := hm ▸ Nat.mod_lt rank hpos
    obtain ⟨k, hk⟩ : ∃ k, rank / 2 ^ f.fraction = k + 1 := by
      refine ⟨rank / 2 ^ f.fraction - 1, ?_⟩
      have := Nat.div_pos (Nat.le_of_not_lt hlarge) hpos
      omega
    rw [hk] at hparts ⊢
    rw [Nat.add_sub_cancel]
    have hlog : ((2 ^ f.fraction + m) * 2 ^ k).log2 = f.fraction + k := by
      have hne : (2 ^ f.fraction + m) * 2 ^ k ≠ 0 :=
        Nat.ne_of_gt (Nat.mul_pos (by omega) (Nat.two_pow_pos _))
      refine (Nat.log2_eq_iff hne).mpr ⟨?_, ?_⟩
      · rw [Nat.pow_add]
        exact Nat.mul_le_mul_right _ (Nat.le_add_right _ _)
      · rw [show f.fraction + k + 1 = (f.fraction + 1) + k by omega, Nat.pow_add]
        exact Nat.mul_lt_mul_of_pos_right (by omega) (Nat.two_pow_pos _)
    rw [hlog, Nat.add_sub_cancel_left]
    rw [divEven_mul_left (Nat.mul_pos hden (Nat.two_pow_pos _)) (k := 2 ^ f.fraction + m) (by
      rw [Nat.mul_assoc, Nat.mul_comm (2 ^ k)])]
    rw [← hparts, Nat.mul_comm, Nat.mul_add, Nat.mul_one]
    omega

/-! ### The shortest decimal -/

variable {f}

/-- What the search finds on a grid reads back. -/
theorem ofDecimal_of_onGrid? {rank : Nat} {exponent : Int} {d : Decimal}
    (hd : f.onGrid? rank exponent = some d) : f.ofDecimal d = rank := by
  rw [onGrid?] at hd
  generalize (if 0 ≤ exponent then _ else _ : Nat × Nat) = scaled at hd
  dsimp only at hd
  split at hd
  · rename_i habove
    obtain rfl := Option.some.inj hd
    exact habove.1.2
  · split at hd
    · rename_i hbelow
      obtain rfl := Option.some.inj hd
      exact hbelow.2
    · split at hd
      · rename_i habove
        obtain rfl := Option.some.inj hd
        exact habove.2
      · cases hd

theorem ofDecimal_of_search {rank steps : Nat} {exponent : Int} {d : Decimal}
    (hd : f.search rank steps exponent = some d) : f.ofDecimal d = rank := by
  induction steps generalizing exponent with
  | zero => exact ofDecimal_of_onGrid? hd
  | succ steps ih =>
      rw [search] at hd
      split at hd
      · rename_i hfound
        obtain rfl := Option.some.inj hd
        exact ofDecimal_of_onGrid? hfound
      · exact ih hd

theorem length_ofNat_le_iff {n k : Nat} (hk : 0 < k) :
    (Numeral.ofNat n).length ≤ k ↔ n < 10 ^ k :=
  Nat.length_toDigits_le_iff (by decide) hk

/-- The exact value of a magnitude, as a decimal, reads back. -/
theorem ofDecimal_exact (hfraction : f.fraction ≤ f.least) {rank : Nat} (hpos : 0 < rank)
    (hrank : rank < f.infinity) : f.ofDecimal ⟨f.units rank * 5 ^ f.least, -f.least⟩ = rank := by
  have hexponents : 0 < f.exponents := Nat.pos_of_mul_pos_right (Nat.zero_lt_of_lt hrank)
  have hlength : (Numeral.ofNat (f.units rank * 5 ^ f.least)).length ≤ f.exponents + f.least := by
    rw [length_ofNat_le_iff (by omega)]
    calc f.units rank * 5 ^ f.least
        < 2 ^ (f.fraction + f.exponents) * 5 ^ f.least :=
          Nat.mul_lt_mul_of_pos_right (f.units_lt hrank) (Nat.pow_pos (by decide))
      _ ≤ 2 ^ (f.exponents + f.least) * 5 ^ (f.exponents + f.least) :=
          Nat.mul_le_mul (Nat.pow_le_pow_right (by decide) (by omega))
            (Nat.pow_le_pow_right (by decide) (by omega))
      _ = 10 ^ (f.exponents + f.least) := (Nat.mul_pow 2 5 _).symm
  have hunits : f.units rank ≠ 0 := by
    rw [units_eq]
    split
    · exact Nat.ne_of_gt hpos
    · exact Nat.ne_of_gt (Nat.mul_pos (by have := Nat.two_pow_pos f.fraction; omega)
        (Nat.two_pow_pos _))
  have hcoefficient : f.units rank * 5 ^ f.least ≠ 0 :=
    Nat.mul_ne_zero hunits (Nat.ne_of_gt (Nat.pow_pos (by decide)))
  rw [ofDecimal_eq]
  dsimp only
  rw [if_neg (by omega), if_neg (by omega)]
  split
  · have hleast : f.least = 0 := by omega
    refine f.nearest_units (by decide) ?_
    simp [hleast]
  · refine f.nearest_units (Nat.pow_pos (by decide)) ?_
    rw [Int.natAbs_neg, Int.natAbs_natCast, Nat.mul_assoc, ← Nat.mul_pow]

/-- The shortest decimal of a finite magnitude reads back. -/
theorem ofDecimal_shortest (hfraction : f.fraction ≤ f.least) {rank : Nat}
    (hrank : rank < f.infinity) : f.ofDecimal (f.shortest rank) = rank := by
  rw [shortest]
  split
  · rename_i hzero
    simp [hzero, ofDecimal]
  · rename_i hpos
    dsimp only
    cases hfound : f.search rank _ _ with
    | none => exact ofDecimal_exact hfraction (Nat.pos_of_ne_zero hpos) hrank
    | some d => exact ofDecimal_of_search hfound

end BinaryFormat

/-! ### Positional texts -/

theorem Numeral.isDigit_of_mem_ofNat {n : Nat} {c : Char} (hc : c ∈ ofNat n) : c.isDigit = true :=
  Nat.isDigit_of_mem_toDigits (by decide) (by decide) hc

theorem Numeral.ofNat_ne_nil (n : Nat) : ofNat n ≠ [] := Nat.toDigits_ne_nil

theorem Numeral.ofDigitChars_ofNat (n : Nat) : Nat.ofDigitChars 10 (ofNat n) 0 = n :=
  Nat.ofDigitChars_ten_toDigits

/-- Multiplying by powers of ten puts zeros behind the digits. -/
theorem Numeral.ofNat_mul_pow {n : Nat} (hn : 0 < n) (places : Nat) :
    ofNat (n * 10 ^ places) = ofNat n ++ List.replicate places '0' := by
  induction places with
  | zero => simp
  | succ places ih =>
      have hpos : 0 < n * 10 ^ places := Nat.mul_pos hn (Nat.pow_pos (by decide))
      have happend := Nat.toDigits_append_toDigits (b := 10) (d := 0) (by decide) hpos (by decide)
      have hmul : n * 10 ^ (places + 1) = 10 * (n * 10 ^ places) + 0 := by
        rw [Nat.pow_succ, Nat.add_zero, Nat.mul_comm 10, Nat.mul_assoc]
      rw [hmul, ofNat, ← happend, Nat.toDigits_zero, ← ofNat, ih, List.append_assoc,
        List.replicate_succ']

namespace Decimal

/-- Digits, with a point behind the whole part if there is a fraction. -/
def withPoint (whole fraction : List Char) : List Char :=
  if fraction = [] then whole else whole ++ '.' :: fraction

/-- Zeros may be taken from the exponent into the coefficient. -/
theorem ofDecimal_mul_pow (f : BinaryFormat) {coefficient : Nat} (hpos : 0 < coefficient)
    (places : Nat) :
    f.ofDecimal ⟨coefficient * 10 ^ places, 0⟩ = f.ofDecimal ⟨coefficient, places⟩ := by
  have hlength : ((Numeral.ofNat (coefficient * 10 ^ places)).length : Int) + 0 =
      (Numeral.ofNat coefficient).length + (places : Int) := by
    rw [Numeral.ofNat_mul_pow hpos, List.length_append, List.length_replicate]
    omega
  have hne : coefficient * 10 ^ places ≠ 0 :=
    Nat.ne_of_gt (Nat.mul_pos hpos (Nat.pow_pos (by decide)))
  have hne' : coefficient ≠ 0 := Nat.ne_of_gt hpos
  simp only [BinaryFormat.ofDecimal_eq, hlength, hne, hne', false_or, Int.toNat_natCast,
    Int.toNat_zero, Nat.pow_zero, Nat.mul_one, Int.le_refl, Int.natCast_nonneg, if_true]

/-- The positional text of a decimal is made of digits and at most one point, and what it names
rounds to the same magnitude. -/
theorem exists_positional (d : Decimal) :
    ∃ whole fraction, whole ≠ [] ∧ (∀ c ∈ whole, c.isDigit = true) ∧
      (∀ c ∈ fraction, c.isDigit = true) ∧ d.positional = withPoint whole fraction ∧
      ∀ f : BinaryFormat, f.ofDecimal
        ⟨Nat.ofDigitChars 10 (whole ++ fraction) 0, -(fraction.length : Int)⟩ = f.ofDecimal d := by
  obtain ⟨coefficient, exponent⟩ := d
  have hdigits {c : Char} (hc : c ∈ Numeral.ofNat coefficient) := Numeral.isDigit_of_mem_ofNat hc
  rw [positional]
  dsimp only
  split
  · rename_i hzero
    refine ⟨['0'], [], by simp, by simp, by simp, rfl, fun f => ?_⟩
    simp [BinaryFormat.ofDecimal, hzero, Nat.ofDigitChars]
  · rename_i hne
    have hpos : 0 < coefficient := Nat.pos_of_ne_zero hne
    split
    · rename_i hwhole
      obtain ⟨places, rfl⟩ := Int.eq_ofNat_of_zero_le hwhole
      rw [Int.toNat_natCast, ← Numeral.ofNat_mul_pow hpos]
      refine ⟨Numeral.ofNat (coefficient * 10 ^ places), [], Numeral.ofNat_ne_nil _,
        fun c hc => Numeral.isDigit_of_mem_ofNat hc, by simp, rfl, fun f => ?_⟩
      rw [List.append_nil, Numeral.ofDigitChars_ofNat]
      exact ofDecimal_mul_pow f hpos places
    · rename_i hfraction
      have hexponent : -(exponent.natAbs : Int) = exponent := by omega
      split
      · rename_i hfits
        have hpart := List.take_append_drop
          ((Numeral.ofNat coefficient).length - exponent.natAbs) (Numeral.ofNat coefficient)
        have htake := List.length_take
          (i := (Numeral.ofNat coefficient).length - exponent.natAbs)
          (l := Numeral.ofNat coefficient)
        have hdrop := List.length_drop
          (i := (Numeral.ofNat coefficient).length - exponent.natAbs)
          (l := Numeral.ofNat coefficient)
        generalize (Numeral.ofNat coefficient).take _ = whole at hpart htake ⊢
        generalize (Numeral.ofNat coefficient).drop _ = fraction at hpart hdrop ⊢
        have hlength : fraction.length = exponent.natAbs := by omega
        refine ⟨whole, fraction, ?_, ?_, ?_, ?_, fun f => ?_⟩
        · rintro rfl
          rw [List.length_nil] at htake
          omega
        · exact fun c hc => hdigits (hpart ▸ List.mem_append_left fraction hc)
        · exact fun c hc => hdigits (hpart ▸ List.mem_append_right whole hc)
        · rw [withPoint, if_neg]
          rintro rfl
          rw [List.length_nil] at hlength
          omega
        · rw [hpart, hlength, Numeral.ofDigitChars_ofNat, hexponent]
      · rename_i hshort
        have hlength := Nat.length_toDigits_pos (b := 10) (n := coefficient)
        refine ⟨['0'], List.replicate (exponent.natAbs - (Numeral.ofNat coefficient).length) '0' ++
          Numeral.ofNat coefficient, by simp, by simp, ?_, ?_, fun f => ?_⟩
        · intro c hc
          rcases List.mem_append.mp hc with hc | hc
          · rw [List.eq_of_mem_replicate hc]
            rfl
          · exact hdigits hc
        · rw [withPoint, if_neg (by simp [Numeral.ofNat_ne_nil])]
          rfl
        · have hcoefficient : Nat.ofDigitChars 10 (['0'] ++ (List.replicate (exponent.natAbs -
              (Numeral.ofNat coefficient).length) '0' ++ Numeral.ofNat coefficient)) 0 =
                coefficient := by
            have hzero : Nat.ofDigitChars 10 ['0'] 0 = 0 := rfl
            rw [Nat.ofDigitChars_append, hzero, Nat.ofDigitChars_append,
              Nat.ofDigitChars_replicate_zero, Nat.mul_zero, Numeral.ofDigitChars_ofNat]
          rw [hcoefficient, List.length_append, List.length_replicate, Nat.sub_add_cancel
            (Nat.le_of_not_lt hshort), hexponent]

/-- Digits with a point are read as such. -/
theorem unsigned?_withPoint {whole fraction : List Char} (hne : whole ≠ [])
    (hwhole : ∀ c ∈ whole, c.isDigit = true) (hfraction : ∀ c ∈ fraction, c.isDigit = true) :
    unsigned? (withPoint whole fraction) =
      some ⟨Nat.ofDigitChars 10 (whole ++ fraction) 0, -(fraction.length : Int)⟩ := by
  have htake : (withPoint whole fraction).takeWhile Char.isDigit = whole := by
    rw [withPoint]
    split
    · rw [List.takeWhile_eq_self_iff.mpr hwhole]
    · rw [List.takeWhile_append_of_pos hwhole, List.takeWhile_cons_of_neg (by decide),
        List.append_nil]
  have hdrop : (withPoint whole fraction).dropWhile Char.isDigit =
      if fraction = [] then [] else '.' :: fraction := by
    rw [withPoint]
    split
    · exact List.dropWhile_eq_nil_iff.mpr hwhole
    · rw [List.dropWhile_append_of_pos hwhole, List.dropWhile_cons_of_neg (by decide)]
  rw [unsigned?, htake, hdrop]
  by_cases hempty : fraction = []
  · subst hempty
    simp [hne, exponent?]
  · have htakes := List.takeWhile_eq_self_iff.mpr hfraction
    have hdrops := List.dropWhile_eq_nil_iff.mpr hfraction
    simp [hempty, hne, exponent?, htakes, hdrops]

end Decimal

/-! ### Texts of numbers -/

/-- Digits, with at most one point between them, after a sign or not. -/
def IsNumber (cs : List Char) : Prop :=
  ∃ (negative : Bool) (whole fraction : List Char), whole ≠ [] ∧ (∀ c ∈ whole, c.isDigit = true) ∧
    (∀ c ∈ fraction, c.isDigit = true) ∧
      cs = if negative then '-' :: Decimal.withPoint whole fraction
        else Decimal.withPoint whole fraction

namespace Binary32

theorem toLower_of_isDigit {c : Char} (hc : c.isDigit = true) : c.toLower = c := by
  have hrange : c.val.toNat ≤ 57 := (Char.isDigit_iff_toNat.mp hc).2
  have hupper : ¬(c.val ≥ 'A'.val ∧ c.val ≤ 'Z'.val) := by
    rintro ⟨hlow, -⟩
    have hlow : 65 ≤ c.val.toNat := UInt32.le_iff_toNat_le.mp hlow
    omega
  exact dif_neg hupper

/-- A magnitude that begins with a digit is read as a decimal, with its sign. -/
theorem read?_of_digit {c : Char} {cs : List Char} {d : Decimal} (hc : c.isDigit = true)
    (hd : Decimal.unsigned? (c :: cs) = some d) (negative : Bool) :
    read? (if negative then '-' :: c :: cs else c :: cs) =
      some (.ofRank negative (BinaryFormat.single.ofDecimal d)) := by
  have hlower : c.toLower = c := toLower_of_isDigit hc
  have hne (k : Char) (hk : k.isDigit = false) : c ≠ k := by
    rintro rfl
    rw [hk] at hc
    cases hc
  have hword : ¬((c :: cs).map Char.toLower = ['i', 'n', 'f'] ∨
      (c :: cs).map Char.toLower = ['i', 'n', 'f', 'i', 'n', 'i', 't', 'y']) := by
    rw [List.map_cons, hlower]
    simp [hne 'i' rfl]
  have hnan : (c :: cs).map Char.toLower ≠ ['n', 'a', 'n'] := by
    rw [List.map_cons, hlower]
    simp [hne 'n' rfl]
  cases negative with
  | true =>
      rw [if_pos rfl, read?, if_neg hword, if_neg hnan, hd]
      rfl
  | false =>
      rw [if_neg Bool.false_ne_true, read?]
      · rw [if_neg hword, if_neg hnan, hd]
        rfl
      · intro rest heq
        exact hne '-' rfl (List.cons.inj heq).1
      · intro rest heq
        exact hne '+' rfl (List.cons.inj heq).1

theorem lt_infinity_of_isFinite {negative : Bool}
    {rank : Fin (BinaryFormat.single.infinity + 1)}
    (hx : (Binary.signed negative rank : Binary32).isFinite = true) :
    rank.val < BinaryFormat.single.infinity := by
  have hne : rank.val ≠ BinaryFormat.single.infinity := of_decide_eq_true hx
  have := rank.isLt
  omega

theorem isNumber_text {x : Binary32} (hx : x.isFinite = true) : IsNumber x.text := by
  cases x with
  | nan => cases hx
  | signed negative rank =>
      obtain ⟨whole, fraction, hne, hwhole, hfraction, htext, -⟩ :=
        Decimal.exists_positional (BinaryFormat.single.shortest rank.val)
      refine ⟨negative, whole, fraction, hne, hwhole, hfraction, ?_⟩
      rw [Binary.text, if_neg (Nat.ne_of_lt (lt_infinity_of_isFinite hx)), htext]

/-- A finite number is read back from its text. -/
theorem read?_text {x : Binary32} (hx : x.isFinite = true) : read? x.text = some x := by
  cases x with
  | nan => cases hx
  | signed negative rank =>
      have hrank := lt_infinity_of_isFinite hx
      obtain ⟨whole, fraction, hne, hwhole, hfraction, htext, hvalue⟩ :=
        Decimal.exists_positional (BinaryFormat.single.shortest rank.val)
      have hdecimal := Decimal.unsigned?_withPoint hne hwhole hfraction
      obtain ⟨c, cs, rfl⟩ := List.exists_cons_of_ne_nil hne
      obtain ⟨rest, hrest⟩ : ∃ rest, Decimal.withPoint (c :: cs) fraction = c :: rest := by
        rw [Decimal.withPoint]
        split
        · exact ⟨cs, rfl⟩
        · exact ⟨cs ++ '.' :: fraction, rfl⟩
      rw [hrest] at htext hdecimal
      have hread := read?_of_digit (hwhole c List.mem_cons_self) hdecimal negative
      have hrank' : BinaryFormat.single.ofDecimal (BinaryFormat.single.shortest rank.val) = rank :=
        BinaryFormat.ofDecimal_shortest (by decide) hrank
      rw [hvalue, hrank'] at hread
      have hrank'' : Binary.ofRank negative rank.val = Binary.signed negative rank := by
        simp only [Binary.ofRank, Nat.min_eq_left (Nat.le_of_lt hrank)]
      rw [Binary.text, if_neg (Nat.ne_of_lt hrank), htext, hread, hrank'']

end Binary32

namespace Numeral

/-- An integer is read back from its numeral. -/
theorem signed?_ofInt (i : Int) : signed? (ofInt i) = some i := by
  rw [ofInt]
  split
  · rename_i hneg
    rw [signed?, toNat?_ofNat]
    exact congrArg some (by omega : -(i.natAbs : Int) = i)
  · rename_i hnonneg
    obtain ⟨c, cs, hcs⟩ := List.exists_cons_of_ne_nil (ofNat_ne_nil i.natAbs)
    have hdigit : c.isDigit = true := isDigit_of_mem_ofNat (n := i.natAbs) (by simp [hcs])
    have hread := toNat?_ofNat i.natAbs
    rw [hcs] at hread ⊢
    rw [signed?, hread]
    · exact congrArg some (by omega : (i.natAbs : Int) = i)
    · rintro digits heq
      rw [(List.cons.inj heq).1] at hdigit
      cases hdigit
    · rintro digits heq
      rw [(List.cons.inj heq).1] at hdigit
      cases hdigit

theorem isNumber_ofInt32 (i : Int32) : IsNumber (ofInt32 i) := by
  refine ⟨decide (i.toInt < 0), ofNat i.toInt.natAbs, [], ofNat_ne_nil _,
    fun c hc => isDigit_of_mem_ofNat hc, by simp, ?_⟩
  simp [ofInt32, ofInt, Decimal.withPoint]

/-- An integer of 32 bits is read back from its numeral. -/
theorem int32?_ofInt32 (i : Int32) : int32? (ofInt32 i) = some i := by
  have hmin := i.minValue_le_toInt
  have hmax := i.toInt_le
  rw [int32?, ofInt32, signed?_ofInt, Option.bind_some, if_pos, Int32.ofInt_toInt]
  exact ⟨hmin, hmax⟩

end Numeral

end DialogScript
