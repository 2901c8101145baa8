import DialogScript.Proofs.Text.Around
import DialogScript.Text.Utf8

/-!
# Lines in the bytes of a text

The byte of a line feed occurs in the bytes of no other character. So the lines of a text can be
found in its bytes, from any byte on, be it one in the midst of a character: the line feeds are
counted there, and the bytes of the line between two of them are the bytes of a text.

## Main definitions

* `bytesOf`: the bytes of a list of characters

## Main results

* `count_take_bytesOf`: the line feeds before an offset are counted in the bytes
* `IsLine.bytesOf`: lines of the text are lines of the bytes
* `exists_bytes_around`: the line of the bytes around an offset
-/

namespace DialogScript

/-- The bytes of the characters. -/
def bytesOf (cs : List Char) : List UInt8 := Utf8.toBytes (String.ofList cs)

theorem bytesOf_eq (cs : List Char) : bytesOf cs = cs.flatMap String.utf8EncodeChar := by
  rw [bytesOf, Utf8.toBytes, String.toUTF8_eq_toByteArray, String.toByteArray_ofList,
    List.utf8Encode, List.data_toByteArray]

theorem bytesOf_cons (c : Char) (cs : List Char) :
    bytesOf (c :: cs) = String.utf8EncodeChar c ++ bytesOf cs := by
  rw [bytesOf_eq, bytesOf_eq, List.flatMap_cons]

theorem bytesOf_append (cs ds : List Char) : bytesOf (cs ++ ds) = bytesOf cs ++ bytesOf ds := by
  rw [bytesOf_eq, bytesOf_eq, bytesOf_eq, List.flatMap_append]

theorem length_bytesOf (cs : List Char) : (bytesOf cs).length = utf8Length cs := by
  induction cs with
  | nil => rw [bytesOf_eq]; rfl
  | cons c cs ih =>
      rw [bytesOf_cons, List.length_append, String.length_utf8EncodeChar, ih, utf8Length]

/-! ### Line feeds -/

theorem utf8EncodeChar_feed : String.utf8EncodeChar '\n' = [10] := rfl

/-- The byte of a line feed stands in no other character. -/
theorem eq_feed_of_mem_utf8EncodeChar {c : Char} (hmem : 10 ∈ String.utf8EncodeChar c) :
    c = '\n' := by
  -- The bytes of characters that take more than one begin at 128.
  have hhigh (n k : Nat) (hk : 128 ≤ k) (hn : n + k < 256) :
      (10 : UInt8) ≠ UInt8.ofNat (n + k) := by
    intro heq
    have hnat := congrArg UInt8.toNat heq
    rw [UInt8.toNat_ofNat_of_lt' hn] at hnat
    have hten : (10 : UInt8).toNat = 10 := rfl
    omega
  rw [String.utf8EncodeChar] at hmem
  split at hmem
  · have hnat := congrArg UInt8.toNat (List.mem_singleton.mp hmem)
    rw [UInt8.toNat_ofNat_of_lt' (show c.val.toNat < 256 by omega)] at hnat
    exact Char.ext (UInt32.toNat_inj.mp hnat.symm)
  · split at hmem
    · simp only [List.mem_cons, List.not_mem_nil, or_false] at hmem
      rcases hmem with heq | heq
      all_goals exact absurd heq (hhigh _ _ (by omega) (by omega))
    · split at hmem
      · simp only [List.mem_cons, List.not_mem_nil, or_false] at hmem
        rcases hmem with heq | heq | heq
        all_goals exact absurd heq (hhigh _ _ (by omega) (by omega))
      · simp only [List.mem_cons, List.not_mem_nil, or_false] at hmem
        rcases hmem with heq | heq | heq | heq
        all_goals exact absurd heq (hhigh _ _ (by omega) (by omega))

theorem count_take_utf8EncodeChar (c : Char) (n : Nat) :
    ((String.utf8EncodeChar c).take (n + 1)).count 10 = [c].count '\n' := by
  by_cases hc : c = '\n'
  · rw [hc, utf8EncodeChar_feed, List.take_succ_cons, List.take_nil, List.count_singleton_self,
      List.count_singleton_self]
  · have hnone : 10 ∉ (String.utf8EncodeChar c).take (n + 1) := fun hmem =>
      hc (eq_feed_of_mem_utf8EncodeChar (List.mem_of_mem_take hmem))
    rw [List.count_eq_zero.mpr hnone, List.count_singleton, if_neg (by simpa using hc)]

/-- The line feeds before an offset are counted in the bytes. -/
theorem count_take_bytesOf (cs : List Char) (o : Nat) :
    ((bytesOf cs).take o).count 10 = (upTo cs o).count '\n' := by
  induction cs generalizing o with
  | nil => rw [bytesOf_eq, upTo]; simp
  | cons c cs ih =>
      cases o with
      | zero => rw [upTo]; rfl
      | succ o =>
          rw [bytesOf_cons, List.take_append, String.length_utf8EncodeChar, List.count_append,
            count_take_utf8EncodeChar, ih, upTo, ← List.count_append, List.singleton_append]

theorem feed_mem_bytesOf {cs : List Char} (hmem : 10 ∈ bytesOf cs) : '\n' ∈ cs := by
  rw [bytesOf_eq] at hmem
  obtain ⟨c, hc, hbyte⟩ := List.mem_flatMap.mp hmem
  exact eq_feed_of_mem_utf8EncodeChar hbyte ▸ hc

/-- The lines of a text are lines of its bytes. -/
theorem IsLine.bytesOf {source before line after : List Char}
    (h : IsLine '\n' source before line after) :
    IsLine 10 (bytesOf source) (bytesOf before) (bytesOf line) (bytesOf after) where
  parts := by rw [h.parts, bytesOf_append, bytesOf_append]
  begins := by
    rcases List.eq_nil_or_concat before with rfl | ⟨init, c, rfl⟩
    · intro b hb
      rw [bytesOf_eq] at hb
      cases hb
    · obtain rfl : c = '\n' := h.begins c (by simp)
      intro b hb
      rw [List.concat_eq_append, bytesOf_append, List.getLast?_append] at hb
      exact (Option.some.inj hb).symm
  within := mt feed_mem_bytesOf h.within
  ends := by
    cases after with
    | nil =>
        intro b hb
        rw [bytesOf_eq] at hb
        cases hb
    | cons c after =>
        obtain rfl : c = '\n' := h.ends c rfl
        intro b hb
        rw [bytesOf_cons, utf8EncodeChar_feed] at hb
        exact (Option.some.inj hb).symm

/-- The line of the bytes around an offset, wherever that falls, has a text, and the columns of the
line count the characters from its beginning. -/
theorem exists_bytes_around (source : List Char) (o : Nat) :
    ∃ before line after, IsLine 10 (bytesOf source) before line after ∧
      before.length ≤ min o (bytesOf source).length ∧
      min o (bytesOf source).length ≤ before.length + line.length ∧
      Span.text? source ⟨before.length, before.length + line.length⟩ =
        some (lineTextAt source o) ∧
      columnAt? source o = (Span.text? source ⟨before.length, min o (bytesOf source).length⟩).map
        fun x => saturated (x.length + 1) := by
  obtain ⟨before, after, hbefore, hline, hstart, hstop⟩ := exists_isLine_around source o
  refine ⟨bytesOf before, bytesOf (lineTextAt source o), bytesOf after, hline.bytesOf, ?_⟩
  simp only [length_bytesOf]
  exact ⟨hstart, hstop, Span.text?_eq_some_iff.mpr ⟨before, after, hline.parts, rfl, rfl⟩,
    columnAt?_eq_map hbefore⟩

end DialogScript
