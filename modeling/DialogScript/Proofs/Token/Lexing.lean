import DialogScript.Proofs.Number.ReadBack
import DialogScript.Proofs.Token.Shape

/-!
# Scanning what is printed

What a printer writes is scanned piece by piece, if what stands behind a piece does not belong to
it. The lexemes of what is left of a source then begin with the lexeme of the piece.

## Main definitions

* `Stops`: a text does not go on with characters of a kind
* `lexed`: the lexemes of what is left of a source

## Main results

* `lexed_word`, `lexed_number`, `lexed_string`, `lexed_condition`, …: one lemma for each kind
-/

namespace DialogScript

/-- The text does not begin with a character of the kind. -/
def Stops (p : Char → Bool) (cs : List Char) : Prop := ∀ c, cs.head? = some c → p c = false

theorem stops_cons {p : Char → Bool} {c : Char} (hc : p c = false) (cs : List Char) :
    Stops p (c :: cs) := by
  rintro d hd
  obtain rfl := Option.some.inj hd
  exact hc

theorem takeWhile_append {p : Char → Bool} {cs rest : List Char} (hcs : ∀ c ∈ cs, p c = true)
    (hrest : Stops p rest) : (cs ++ rest).takeWhile p = cs := by
  rw [List.takeWhile_append_of_pos hcs]
  cases rest with
  | nil => rw [List.takeWhile_nil, List.append_nil]
  | cons c rest => rw [List.takeWhile_cons_of_neg (by simp [hrest c rfl]), List.append_nil]

theorem dropWhile_append {p : Char → Bool} {cs rest : List Char} (hcs : ∀ c ∈ cs, p c = true)
    (hrest : Stops p rest) : (cs ++ rest).dropWhile p = rest := by
  rw [List.dropWhile_append_of_pos hcs]
  cases rest with
  | nil => rfl
  | cons c rest => rw [List.dropWhile_cons_of_neg (by simp [hrest c rfl])]

namespace Piece

/-! ### One piece -/

theorem through_append_cons {closing : Char} {body : List Char} (hbody : closing ∉ body)
    (rest : List Char) : through closing (body ++ closing :: rest) = (body ++ [closing], rest) := by
  induction body with
  | nil => simp [through]
  | cons c body ih =>
      rw [List.mem_cons, not_or] at hbody
      rw [List.cons_append, through, if_neg (fun heq => hbody.1 heq.symm), ih hbody.2]
      rfl

theorem digits_withPoint {whole fraction rest : List Char} (hwhole : ∀ c ∈ whole, c.isDigit = true)
    (hfraction : ∀ c ∈ fraction, c.isDigit = true) (hdigit : Stops Char.isDigit rest)
    (hpoint : fraction = [] → ∀ d after, rest = '.' :: d :: after → d.isDigit = false) :
    digits (Decimal.withPoint whole fraction ++ rest) =
      (Decimal.withPoint whole fraction, rest) := by
  rw [Decimal.withPoint]
  split
  · rename_i hnone
    rw [digits, dropWhile_append hwhole hdigit, takeWhile_append hwhole hdigit]
    split
    · rename_i d after
      rw [if_neg (by rw [hpoint hnone d after rfl]; decide)]
    · rfl
  · rename_i hne
    obtain ⟨d, ds, rfl⟩ := List.exists_cons_of_ne_nil hne
    have hpoint : Stops Char.isDigit ('.' :: d :: ds ++ rest) := stops_cons (by decide) _
    have hd : d.isDigit = true := hfraction d List.mem_cons_self
    have hds : ∀ c ∈ ds, c.isDigit = true := fun c hc => hfraction c (List.mem_cons_of_mem d hc)
    rw [digits, List.append_assoc, List.cons_append, ← List.cons_append,
      dropWhile_append hwhole hpoint, takeWhile_append hwhole hpoint]
    change (if d.isDigit = true then
      (whole ++ '.' :: d :: (ds ++ rest).takeWhile Char.isDigit,
        (ds ++ rest).dropWhile Char.isDigit)
      else (whole, '.' :: d :: (ds ++ rest))) = _
    rw [if_pos hd, takeWhile_append hds hdigit, dropWhile_append hds hdigit]

theorem ne_of_isAlpha {c d : Char} (hc : c.isAlpha = true) (hd : d.isAlpha = false) : c ≠ d := by
  rintro rfl
  rw [hd] at hc
  cases hc

theorem ne_of_isDigit {c d : Char} (hc : c.isDigit = true) (hd : d.isDigit = false) : c ≠ d := by
  rintro rfl
  rw [hd] at hc
  cases hc

theorem isDigit_of_isAlpha {c : Char} (hc : c.isAlpha = true) : c.isDigit = false := by
  have hletter : 65 ≤ c.val.toNat := by
    rcases Bool.or_eq_true_iff.mp (show (c.isUpper || c.isLower) = true from hc) with hc | hc
    · have hrange : decide (c.val ≥ 'A'.val ∧ c.val ≤ 'Z'.val) = true := hc
      exact UInt32.le_iff_toNat_le.mp (of_decide_eq_true hrange).1
    · have hrange : (decide (c.val ≥ 'a'.val) && decide (c.val ≤ 'z'.val)) = true := hc
      have hlow := of_decide_eq_true (Bool.and_eq_true_iff.mp hrange).1
      exact Nat.le_trans (by decide) (UInt32.le_iff_toNat_le.mp hlow)
  rw [Bool.eq_false_iff]
  intro hdigit
  have hrange : c.val.toNat ≤ 57 := (Char.isDigit_iff_toNat.mp hdigit).2
  omega

/-- A letter begins a word. -/
theorem scanFrom_alpha {c : Char} (hc : c.isAlpha = true) (cs : List Char) :
    scanFrom c cs =
      if c :: cs.takeWhile isWordChar = waitWhileWord then
        (.waitWhile, cs.takeWhile isWordChar ++ (codeRun false (cs.dropWhile isWordChar)).1,
          (codeRun false (cs.dropWhile isWordChar)).2)
      else (.word, cs.takeWhile isWordChar, cs.dropWhile isWordChar) := by
  have hne {d : Char} (hd : d.isAlpha = false) := ne_of_isAlpha hc hd
  have hgap : ¬isGap c = true := by
    simp [isGap, hne (d := ' ') rfl, hne (d := '\t') rfl, hne (d := '\r') rfl]
  rw [scanFrom, if_neg (hne rfl), if_neg hgap, if_neg (hne rfl), if_neg (hne rfl),
    if_neg (hne rfl), if_neg (hne rfl), if_neg (hne rfl),
    if_neg (not_or.mpr ⟨hne rfl, hne rfl⟩), if_neg (fun h => hne rfl h.1), if_neg (hne rfl),
    if_neg (by simp [isDigit_of_isAlpha hc]), if_pos hc]

/-- A digit begins a number. -/
theorem scanFrom_digit {c : Char} (hc : c.isDigit = true) (cs : List Char) :
    scanFrom c cs = (.number, (digits (c :: cs)).1.tail, (digits (c :: cs)).2) := by
  have hne {d : Char} (hd : d.isDigit = false) := ne_of_isDigit hc hd
  have hgap : ¬isGap c = true := by
    simp [isGap, hne (d := ' ') rfl, hne (d := '\t') rfl, hne (d := '\r') rfl]
  rw [scanFrom, if_neg (hne rfl), if_neg hgap, if_neg (hne rfl), if_neg (hne rfl),
    if_neg (hne rfl), if_neg (hne rfl), if_neg (hne rfl),
    if_neg (not_or.mpr ⟨hne rfl, hne rfl⟩), if_neg (fun h => hne rfl h.1), if_neg (hne rfl),
    if_pos hc]

theorem scan?_word {w rest : List Char} (hw : IsWord w) (hrest : Stops isWordChar rest) :
    scan? (w ++ rest) = some (⟨.word, w⟩, rest) := by
  obtain ⟨⟨c, tail, rfl, hc, htail⟩, hne⟩ := hw
  rw [List.cons_append, scan?, if_neg (ne_of_isAlpha hc rfl), scanFrom_alpha hc,
    takeWhile_append htail hrest, dropWhile_append htail hrest, if_neg hne]

/-- The word that takes code along takes along what follows it. -/
theorem scan?_waitWhile {rest : List Char} (hrest : Stops isWordChar rest) :
    scan? (waitWhileWord ++ rest) =
      some (⟨.waitWhile, waitWhileWord ++ (codeRun false rest).1⟩, (codeRun false rest).2) := by
  have htail : ∀ c ∈ ['a', 'i', 't', 'w', 'h', 'i', 'l', 'e'], isWordChar c = true :=
    List.all_eq_true.mp rfl
  change scan? ('w' :: (['a', 'i', 't', 'w', 'h', 'i', 'l', 'e'] ++ rest)) = _
  have hword : ['w', 'a', 'i', 't', 'w', 'h', 'i', 'l', 'e'] = waitWhileWord := rfl
  rw [scan?, if_neg (by decide), scanFrom_alpha (by decide), takeWhile_append htail hrest,
    dropWhile_append htail hrest, if_pos hword]
  rfl

/-- A minus begins a number, unless it begins an arrow. -/
theorem scanFrom_minus {cs : List Char} (hcs : cs.head? ≠ some '>') :
    scanFrom '-' cs = (.number, digits cs) := by
  rw [scanFrom, if_neg (by decide), if_neg (by decide), if_neg (by decide), if_neg (by decide),
    if_neg (by decide), if_neg (by decide), if_neg (by decide), if_neg (by decide),
    if_neg fun harrow => hcs harrow.2, if_pos rfl]

/-- A number is its sign, its digits and the digits behind its point, none of which goes on in what
follows. -/
theorem scan?_number {negative : Bool} {whole fraction rest : List Char}
    (hwhole : ∀ c ∈ whole, c.isDigit = true) (hfraction : ∀ c ∈ fraction, c.isDigit = true)
    (hbegin : negative = true ∨ whole ≠ []) (hdigit : Stops Char.isDigit rest)
    (hpoint : fraction = [] → ∀ d after, rest = '.' :: d :: after → d.isDigit = false)
    (harrow : whole = [] → fraction = [] → rest.head? ≠ some '>') :
    scan? ((if negative then '-' :: Decimal.withPoint whole fraction
        else Decimal.withPoint whole fraction) ++ rest) =
      some (⟨.number, if negative then '-' :: Decimal.withPoint whole fraction
        else Decimal.withPoint whole fraction⟩, rest) := by
  have hdigits := digits_withPoint hwhole hfraction hdigit hpoint
  have hcons (c : Char) (cs : List Char) :
      ∃ tail, Decimal.withPoint (c :: cs) fraction = c :: tail := by
    rw [Decimal.withPoint]
    split
    · exact ⟨cs, rfl⟩
    · exact ⟨cs ++ '.' :: fraction, rfl⟩
  cases negative with
  | true =>
      have hhead : (Decimal.withPoint whole fraction ++ rest).head? ≠ some '>' := by
        cases whole with
        | nil =>
            cases fraction with
            | nil => exact harrow rfl rfl
            | cons d ds => exact fun hhead => absurd (Option.some.inj hhead) (by decide)
        | cons c cs =>
            obtain ⟨tail, htail⟩ := hcons c cs
            rw [htail]
            exact fun hhead =>
              ne_of_isDigit (d := '>') (hwhole c List.mem_cons_self) rfl (Option.some.inj hhead)
      rw [if_pos rfl, List.cons_append, scan?, if_neg (by decide), scanFrom_minus hhead, hdigits]
  | false =>
      obtain ⟨c, cs, rfl⟩ := List.exists_cons_of_ne_nil (hbegin.resolve_left Bool.false_ne_true)
      have hc : c.isDigit = true := hwhole c List.mem_cons_self
      obtain ⟨tail, htail⟩ := hcons c cs
      rw [htail] at hdigits ⊢
      rw [if_neg Bool.false_ne_true, List.cons_append, scan?, if_neg (ne_of_isDigit hc rfl),
        scanFrom_digit hc, ← List.cons_append, hdigits]
      rfl

theorem scan?_of_isNumber {t rest : List Char} (ht : IsNumber t)
    (hrest : Stops (fun c => c.isDigit || c = '.') rest) :
    scan? (t ++ rest) = some (⟨.number, t⟩, rest) := by
  obtain ⟨negative, whole, fraction, hne, hwhole, hfraction, rfl⟩ := ht
  refine scan?_number hwhole hfraction (.inr hne)
    (fun c hc => (Bool.or_eq_false_iff.mp (hrest c hc)).1) ?_ fun hnone => absurd hnone hne
  rintro - d after rfl
  exact absurd (hrest '.' rfl) (by decide)

/-- A run of characters that satisfy `p` ends where they end. -/
theorem run_append_of_stops {p : Char → Bool} {cs rest : List Char} (hcs : ∀ c ∈ cs, p c = true)
    (hrest : Stops p rest) : run p (cs ++ rest) = (cs, rest) := by
  rw [run, takeWhile_append hcs hrest, dropWhile_append hcs hrest]

theorem scan?_gap {c : Char} {gap rest : List Char} (hc : isGap c = true)
    (hgap : ∀ d ∈ gap, isGap d = true) (hrest : Stops isGap rest) :
    scan? (c :: (gap ++ rest)) = some (⟨.whitespace, c :: gap⟩, rest) := by
  have hne {d : Char} (hd : isGap d = false) : c ≠ d := fun heq => by simp [heq, hd] at hc
  rw [scan?, if_neg (hne rfl), scanFrom, if_neg (hne rfl), if_pos hc,
    run_append_of_stops hgap hrest]

theorem scan?_string {body : List Char} (hbody : '"' ∉ body) (rest : List Char) :
    scan? ('"' :: (body ++ '"' :: rest)) = some (⟨.string, '"' :: (body ++ ['"'])⟩, rest) := by
  change some ((⟨.string, '"' :: (through '"' (body ++ '"' :: rest)).1⟩ : Piece),
    (through '"' (body ++ '"' :: rest)).2) = _
  rw [through_append_cons hbody]

theorem scan?_condition {body : List Char} (hbody : ']' ∉ body) (rest : List Char) :
    scan? ('[' :: (body ++ ']' :: rest)) = some (⟨.condition, '[' :: (body ++ [']'])⟩, rest) := by
  change some ((⟨.condition, '[' :: (through ']' (body ++ ']' :: rest)).1⟩ : Piece),
    (through ']' (body ++ ']' :: rest)).2) = _
  rw [through_append_cons hbody]

theorem scan?_textId {id rest : List Char} (hid : ∀ c ∈ id, isTextIdChar c = true)
    (hrest : Stops isTextIdChar rest) :
    scan? ('$' :: (id ++ rest)) = some (⟨.textId, '$' :: id⟩, rest) := by
  change some ((⟨.textId, '$' :: (run isTextIdChar (id ++ rest)).1⟩ : Piece),
    (run isTextIdChar (id ++ rest)).2) = _
  rw [run_append_of_stops hid hrest]

end Piece

/-! ### Lexemes -/

/-- The lexemes that carry meaning in what is left of a source, from the offset `start` after
`feeds` line feeds. -/
def lexed (start feeds : Nat) (cs : List Char) : List Lexeme :=
  (lexemesFrom start feeds (Piece.all cs)).filter fun l => !l.kind.isTrivia

theorem significant_eq (source : List Char) : significant source = lexed 0 0 source := rfl

theorem lexed_nil (o n : Nat) : lexed o n [] = [] := rfl

variable {o n : Nat} {cs rest : List Char} {p : Piece}

theorem lexed_of_none (hscan : Piece.scan? cs = none) : lexed o n cs = [] := by
  rw [lexed, Piece.all_of_none hscan]
  rfl

/-- A piece that carries meaning is the first lexeme. -/
theorem lexed_of_scan? (hscan : Piece.scan? cs = some (p, rest)) (hkind : p.kind.isTrivia = false) :
    lexed o n cs = ⟨p.kind, p.text, o, saturated (1 + n)⟩ ::
      lexed (o + utf8Length p.text) (n + p.text.count '\n') rest := by
  rw [lexed, Piece.all_eq, hscan]
  dsimp only
  rw [lexemesFrom, List.filter_cons_of_pos (by simp [hkind])]
  rfl

/-- A piece that carries no meaning is passed over. -/
theorem lexed_of_trivia (hscan : Piece.scan? cs = some (p, rest)) (hkind : p.kind.isTrivia = true) :
    lexed o n cs = lexed (o + utf8Length p.text) (n + p.text.count '\n') rest := by
  rw [lexed, Piece.all_eq, hscan]
  dsimp only
  rw [lexemesFrom, List.filter_cons_of_neg (by simp [hkind])]
  rfl

theorem count_feed_eq_zero {p : Char → Bool} {cs : List Char} (hcs : ∀ c ∈ cs, p c = true)
    (hp : p '\n' = false) : cs.count '\n' = 0 := by
  rw [List.count_eq_zero]
  intro hmem
  rw [hcs _ hmem] at hp
  cases hp

theorem StaysOnLine.count_feed {cs : List Char} (hcs : StaysOnLine cs) : cs.count '\n' = 0 :=
  List.count_eq_zero.mpr fun hmem => (hcs _ hmem).1 rfl

theorem IsWord.count_feed {w : List Char} (hw : IsWord w) : w.count '\n' = 0 := by
  obtain ⟨⟨c, tail, rfl, hc, htail⟩, -⟩ := hw
  rw [List.count_cons_of_ne (Piece.ne_of_isAlpha hc rfl)]
  exact count_feed_eq_zero htail rfl

theorem IsNumber.count_feed {t : List Char} (ht : IsNumber t) : t.count '\n' = 0 := by
  obtain ⟨negative, whole, fraction, -, hwhole, hfraction, rfl⟩ := ht
  have hpoint : (Decimal.withPoint whole fraction).count '\n' = 0 := by
    have hcount := count_feed_eq_zero hwhole rfl
    have hcount' := count_feed_eq_zero hfraction rfl
    rw [Decimal.withPoint]
    split
    · exact hcount
    · rw [List.count_append, hcount, List.count_cons_of_ne (by decide), hcount']
  cases negative with
  | true => rw [if_pos rfl, List.count_cons_of_ne (by decide), hpoint]
  | false => rw [if_neg Bool.false_ne_true, hpoint]

theorem lexed_word {w : List Char} (hw : IsWord w) (hrest : Stops Piece.isWordChar rest) :
    lexed o n (w ++ rest) =
      ⟨.word, w, o, saturated (1 + n)⟩ :: lexed (o + utf8Length w) n rest := by
  rw [lexed_of_scan? (Piece.scan?_word hw hrest) rfl, hw.count_feed]
  rfl

theorem lexed_number {t : List Char} (ht : IsNumber t)
    (hrest : Stops (fun c => c.isDigit || c = '.') rest) :
    lexed o n (t ++ rest) =
      ⟨.number, t, o, saturated (1 + n)⟩ :: lexed (o + utf8Length t) n rest := by
  rw [lexed_of_scan? (Piece.scan?_of_isNumber ht hrest) rfl, ht.count_feed]
  rfl

theorem count_feed_delimited {opening closing : Char} (hopening : opening ≠ '\n')
    (hclosing : closing ≠ '\n') (body : List Char) :
    (opening :: (body ++ [closing])).count '\n' = body.count '\n' := by
  rw [List.count_cons_of_ne hopening, List.count_append, List.count_cons_of_ne hclosing,
    List.count_nil, Nat.add_zero]

theorem lexed_string {body : List Char} (hbody : '"' ∉ body) :
    lexed o n ('"' :: (body ++ '"' :: rest)) =
      ⟨.string, '"' :: (body ++ ['"']), o, saturated (1 + n)⟩ ::
        lexed (o + utf8Length ('"' :: (body ++ ['"']))) (n + body.count '\n') rest := by
  rw [lexed_of_scan? (Piece.scan?_string hbody rest) rfl,
    count_feed_delimited (by decide) (by decide)]

theorem lexed_condition {body : List Char} (hbody : ']' ∉ body) :
    lexed o n ('[' :: (body ++ ']' :: rest)) =
      ⟨.condition, '[' :: (body ++ [']']), o, saturated (1 + n)⟩ ::
        lexed (o + utf8Length ('[' :: (body ++ [']']))) (n + body.count '\n') rest := by
  rw [lexed_of_scan? (Piece.scan?_condition hbody rest) rfl,
    count_feed_delimited (by decide) (by decide)]

theorem lexed_textId {id : List Char} (hid : ∀ c ∈ id, Piece.isTextIdChar c = true)
    (hrest : Stops Piece.isTextIdChar rest) :
    lexed o n ('$' :: (id ++ rest)) =
      ⟨.textId, '$' :: id, o, saturated (1 + n)⟩ ::
        lexed (o + utf8Length ('$' :: id)) n rest := by
  have hcount : ('$' :: id).count '\n' = 0 := by
    rw [List.count_cons_of_ne (by decide), count_feed_eq_zero hid rfl]
  rw [lexed_of_scan? (Piece.scan?_textId hid hrest) rfl, hcount]
  rfl

/-- A run of code is one lexeme. -/
theorem lexed_code (o n : Nat) (cs : List Char) :
    lexed o n ('!' :: cs) =
      ⟨.code, '!' :: (Piece.codeRun false cs).1, o, saturated (1 + n)⟩ ::
        lexed (o + utf8Length ('!' :: (Piece.codeRun false cs).1)) n
          (Piece.codeRun false cs).2 := by
  have hscan : Piece.scan? ('!' :: cs) =
    some (⟨.code, '!' :: (Piece.codeRun false cs).1⟩, (Piece.codeRun false cs).2) := rfl
  have hcount : ('!' :: (Piece.codeRun false cs).1).count '\n' = 0 := by
    rw [List.count_cons_of_ne (by decide), (Piece.staysOnLine_codeRun false cs).count_feed]
  rw [lexed_of_scan? hscan rfl, hcount]
  rfl

theorem lexed_waitWhile (hrest : Stops Piece.isWordChar rest) :
    lexed o n (Piece.waitWhileWord ++ rest) =
      ⟨.waitWhile, Piece.waitWhileWord ++ (Piece.codeRun false rest).1, o, saturated (1 + n)⟩ ::
        lexed (o + utf8Length (Piece.waitWhileWord ++ (Piece.codeRun false rest).1)) n
          (Piece.codeRun false rest).2 := by
  have hcount : (Piece.waitWhileWord ++ (Piece.codeRun false rest).1).count '\n' = 0 := by
    rw [List.count_append, (Piece.staysOnLine_codeRun false rest).count_feed]
    rfl
  rw [lexed_of_scan? (Piece.scan?_waitWhile hrest) rfl, hcount]
  rfl

theorem lexed_colon (o n : Nat) (rest : List Char) :
    lexed o n (':' :: rest) = ⟨.colon, [':'], o, saturated (1 + n)⟩ ::
      lexed (o + utf8Length [':']) n rest :=
  lexed_of_scan? (p := ⟨.colon, [':']⟩) rfl rfl

theorem lexed_arrow (o n : Nat) (rest : List Char) :
    lexed o n ('-' :: '>' :: rest) = ⟨.arrow, ['-', '>'], o, saturated (1 + n)⟩ ::
      lexed (o + utf8Length ['-', '>']) n rest :=
  lexed_of_scan? (p := ⟨.arrow, ['-', '>']⟩) rfl rfl

/-- A space between lexemes is passed over. -/
theorem lexed_space (hrest : Stops Piece.isGap rest) :
    lexed o n (' ' :: rest) = lexed (o + utf8Length [' ']) n rest :=
  lexed_of_trivia (@Piece.scan?_gap ' ' [] _ rfl (fun _ hd => absurd hd List.not_mem_nil) hrest) rfl

/-- A line feed is passed over and counted. -/
theorem lexed_feed (o n : Nat) (rest : List Char) :
    lexed o n ('\n' :: rest) = lexed (o + utf8Length ['\n']) (n + 1) rest :=
  lexed_of_trivia (p := ⟨.newLine, ['\n']⟩) rfl rfl

end DialogScript
