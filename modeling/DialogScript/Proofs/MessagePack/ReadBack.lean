import DialogScript.MessagePack.Encoding
import DialogScript.Proofs.MessagePack.Streaming

/-!
# Encodings that are read back

An encoding begins with a head that tells where it ends. So a value is read back from its encoding
whatever bytes come behind, and these are left. The shortest encodings are read back on every length
that they are for, and encodings one behind the other as sequences and records.

With a steady decoder no part of an encoding is enough: what is read from a part would be read from
the whole, but the whole is used up.

## Main results

* `reads_textBytes`, `reads_unsignedBytes`, `reads_arrayHeader`, `reads_mapHeader`: the shortest
  encodings are read back
* `Shape.reads_sequence`, `Shape.reads_byKey_succ`: so are the items of a sequence and the fields of
  a record
* `Reads.error_of_prefix`: a part of an encoding is not read
-/

namespace DialogScript.MessagePack

variable {α β σ : Type}

/-! ### Sequences of decoders -/

/-- What follows may take no bytes. -/
theorem Reads.bind_nil {d : Decoder α} {f : α → Decoder β} {taken : List UInt8} {a : α} {b : β}
    (hd : Reads d taken a) (hf : Reads (f a) [] b) : Reads (d >>= f) taken b := by
  rw [← List.append_nil taken]
  exact hd.bind hf

theorem Reads.map {d : Decoder α} {taken : List UInt8} {a : α} (hd : Reads d taken a) (f : α → β) :
    Reads (f <$> d) taken (f a) := by
  rw [← bind_pure_comp]
  exact hd.bind_nil (reads_pure (f a))

/-- No proper part of the bytes that a steady decoder takes is read. -/
theorem Reads.error_of_prefix {d : Decoder α} {part rest : List UInt8} {x : α}
    (hreads : Reads d (part ++ rest) x) (hd : Steady d) (hrest : rest ≠ []) :
    ∃ e, d part = .error e := by
  cases hpart : d part with
  | error e => exact ⟨e, rfl⟩
  | ok result =>
      obtain ⟨taken, rfl, htaken⟩ := hd hpart
      have hwhole := hreads []
      rw [List.append_nil, List.append_assoc, htaken] at hwhole
      have hleft : result.2 ++ rest = [] := (Prod.mk.inj (Except.ok.inj hwhole)).2
      exact absurd (List.append_eq_nil_iff.mp hleft).2 hrest

/-! ### Bytes and heads -/

theorem reads_number {width n : Nat} (hn : n < Nat.pow 256 width) :
    Reads (number width) (bigEndianBytes width n) n := by
  have hbytes := reads_bytes .missingNumber (bigEndianBytes width n)
  rw [length_bigEndianBytes] at hbytes
  refine hbytes.bind_nil ?_
  rw [bigEndian_bigEndianBytes hn]
  exact reads_pure n

/-- A head is read behind its marker. -/
theorem reads_head {byte : UInt8} {taken : List UInt8} {m : Marker} {h : Head}
    (hmarker : Marker.ofByte byte = m) (hhead : Reads m.head taken h) :
    Reads head (byte :: taken) h :=
  (reads_marker byte).bind (hmarker ▸ hhead)

/-- A head that is made of a number is read from the number. -/
theorem reads_return_number {f : Nat → Head} {width n : Nat} (hn : n < Nat.pow 256 width) :
    Reads (do return f (← number width)) (bigEndianBytes width n) (f n) :=
  (reads_number hn).bind_nil (reads_pure (f n))

theorem reads_return_content (content : List UInt8) :
    Reads (do return .text (← bytes .missingContent content.length)) content (Head.text content) :=
  (reads_bytes .missingContent content).bind_nil (reads_pure _)

theorem reads_number_content {width : Nat} {content : List UInt8}
    (hn : content.length < Nat.pow 256 width) :
    Reads (Marker.text width).head (bigEndianBytes width content.length ++ content)
      (.text content) :=
  (reads_number hn).bind (reads_return_content content)

/-! ### Short heads -/

section Short

variable {n : Nat}

theorem ofByte_shortUnsigned (hn : n < 0x80) :
    Marker.ofByte (UInt8.ofNat n) = .shortUnsigned n := by
  have hbyte : (UInt8.ofNat n).toNat = n :=
    UInt8.toNat_ofNat_of_lt' (show n < 256 by omega)
  rw [Marker.ofByte, hbyte, if_pos hn]

theorem ofByte_shortMap (hn : n < 16) :
    Marker.ofByte (UInt8.ofNat (0x80 + n)) = .shortMap n := by
  have hbyte : (UInt8.ofNat (0x80 + n)).toNat = 0x80 + n :=
    UInt8.toNat_ofNat_of_lt' (show 0x80 + n < 256 by omega)
  rw [Marker.ofByte, hbyte, if_neg (by omega), if_pos (by omega), Nat.add_sub_cancel_left]

theorem ofByte_shortArray (hn : n < 16) :
    Marker.ofByte (UInt8.ofNat (0x90 + n)) = .shortArray n := by
  have hbyte : (UInt8.ofNat (0x90 + n)).toNat = 0x90 + n :=
    UInt8.toNat_ofNat_of_lt' (show 0x90 + n < 256 by omega)
  rw [Marker.ofByte, hbyte, if_neg (by omega), if_neg (by omega), if_pos (by omega),
    Nat.add_sub_cancel_left]

theorem ofByte_shortText (hn : n < 32) :
    Marker.ofByte (UInt8.ofNat (0xa0 + n)) = .shortText n := by
  have hbyte : (UInt8.ofNat (0xa0 + n)).toNat = 0xa0 + n :=
    UInt8.toNat_ofNat_of_lt' (show 0xa0 + n < 256 by omega)
  rw [Marker.ofByte, hbyte, if_neg (by omega), if_neg (by omega), if_neg (by omega),
    if_pos (by omega), Nat.add_sub_cancel_left]

end Short

/-! ### Shortest encodings -/

theorem reads_arrayHeader {n : Nat} (hn : n < Nat.pow 2 32) :
    Reads head (arrayHeader n) (.array n) := by
  rw [arrayHeader]
  split
  · exact reads_head (ofByte_shortArray ‹n < 16›) (reads_pure _)
  · split
    · exact reads_head rfl (reads_return_number ‹n < Nat.pow 2 16›)
    · exact reads_head rfl (reads_return_number hn)

theorem reads_mapHeader {n : Nat} (hn : n < Nat.pow 2 32) : Reads head (mapHeader n) (.map n) := by
  rw [mapHeader]
  split
  · exact reads_head (ofByte_shortMap ‹n < 16›) (reads_pure _)
  · split
    · exact reads_head rfl (reads_return_number ‹n < Nat.pow 2 16›)
    · exact reads_head rfl (reads_return_number hn)

theorem reads_textBytes {content : List UInt8} (hn : content.length < Nat.pow 2 32) :
    Reads head (textBytes content) (.text content) := by
  rw [textBytes]
  split
  · exact reads_head (ofByte_shortText ‹content.length < 32›) (reads_return_content content)
  · split
    · exact reads_head rfl (reads_number_content ‹content.length < Nat.pow 2 8›)
    · split
      · exact reads_head rfl (reads_number_content ‹content.length < Nat.pow 2 16›)
      · exact reads_head rfl (reads_number_content hn)

/-- The marker of a natural number is one of a number, and the number is read behind it. -/
theorem reads_unsignedBytes {n : Nat} (hn : n < Nat.pow 2 64) :
    ∃ byte taken, unsignedBytes n = byte :: taken ∧ (Marker.ofByte byte).isNumber ∧
      Reads (Marker.ofByte byte).head taken (.unsigned n) := by
  rw [unsignedBytes]
  split
  · have hshort : Marker.ofByte (UInt8.ofNat n) = .shortUnsigned n :=
      ofByte_shortUnsigned ‹n < 0x80›
    exact ⟨_, _, rfl, hshort ▸ rfl, hshort ▸ reads_pure _⟩
  · split
    · exact ⟨_, _, rfl, rfl, reads_return_number ‹n < Nat.pow 2 8›⟩
    · split
      · exact ⟨_, _, rfl, rfl, reads_return_number ‹n < Nat.pow 2 16›⟩
      · split
        · exact ⟨_, _, rfl, rfl, reads_return_number ‹n < Nat.pow 2 32›⟩
        · exact ⟨_, _, rfl, rfl, reads_return_number hn⟩

/-! ### Names -/

theorem toBytes_injective : Function.Injective Utf8.toBytes := by
  intro s t hbytes
  have htexts := congrArg Utf8.ofBytes? hbytes
  rw [Utf8.ofBytes?_toBytes, Utf8.ofBytes?_toBytes] at htexts
  exact Option.some.inj htexts

/-- Where no two names are equal, the bytes of a name find what has it. -/
theorem find?_eq_some_of_nodup {name : α → String} {xs : List α} (hnames : (xs.map name).Nodup)
    {x : α} (hx : x ∈ xs) :
    xs.find? (fun y => Utf8.toBytes (name y) = Utf8.toBytes (name x)) = some x := by
  induction xs with
  | nil => cases hx
  | cons y ys ih =>
      obtain ⟨hfresh, hrest⟩ := List.nodup_cons.mp hnames
      rcases List.mem_cons.mp hx with rfl | hx
      · exact List.find?_cons_of_pos (decide_eq_true rfl)
      · have hother : name y ≠ name x := fun h => hfresh (h ▸ List.mem_map_of_mem hx)
        rw [List.find?_cons_of_neg (by simpa using toBytes_injective.ne hother)]
        exact ih hrest hx

/-! ### Shapes -/

theorem reads_utf8 (s : String) : Reads (utf8 (Utf8.toBytes s)) [] s := by
  rw [utf8, Utf8.ofBytes?_toBytes]
  exact reads_pure s

theorem reads_replicated {d : Decoder α} {encode : α → List UInt8} {xs : List α}
    (hxs : ∀ x ∈ xs, Reads d (encode x) x) :
    Reads (replicated d xs.length) (xs.flatMap encode) xs := by
  induction xs with
  | nil => exact reads_pure []
  | cons x xs ih =>
      obtain ⟨hx, hrest⟩ := List.forall_mem_cons.mp hxs
      exact hx.bind ((ih hrest).bind_nil (reads_pure (x :: xs)))

namespace Shape

variable {depth : Nat}

theorem reads_text {s : String} (hs : (Utf8.toBytes s).length < Nat.pow 2 32) :
    Reads (text.read depth) (textBytes (Utf8.toBytes s)) s :=
  (reads_textBytes hs).bind_nil (reads_utf8 s)

theorem reads_natural {bits n : Nat} (hn : n < Nat.pow 2 bits) (hwide : n < Nat.pow 2 64) :
    Reads ((natural bits).read depth) (unsignedBytes n) n := by
  obtain ⟨byte, taken, hbytes, hnumber, hhead⟩ := reads_unsignedBytes hwide
  rw [hbytes]
  refine (reads_marker byte).bind ?_
  dsimp only
  rw [if_pos hnumber]
  refine hhead.bind_nil ?_
  dsimp only
  rw [if_pos hn]
  exact reads_pure n

theorem reads_variant {type name : String} {variants : List (String × α)} {value : α}
    (hnames : (variants.map (·.1)).Nodup) (hvalue : (name, value) ∈ variants)
    (hname : (Utf8.toBytes name).length < Nat.pow 2 32) :
    Reads ((variant type variants).read depth) (textBytes (Utf8.toBytes name)) value := by
  refine (reads_textBytes hname).bind_nil ?_
  refine ((reads_utf8 name).map _).bind_nil ?_
  dsimp only
  rw [find?_eq_some_of_nodup hnames hvalue]
  exact reads_pure value

theorem reads_sequence {item : Shape α} {encode : α → List UInt8} {xs : List α}
    (hlength : xs.length < Nat.pow 2 32) (hxs : ∀ x ∈ xs, Reads (item.read depth) (encode x) x) :
    Reads ((sequence item).read (depth + 1)) (arrayHeader xs.length ++ xs.flatMap encode) xs :=
  (reads_arrayHeader hlength).bind (reads_replicated hxs)

/-- A field is read as its value is. -/
theorem reads_field {name : String} {shape : Shape α} {value? : σ → Option α} {put : σ → α → σ}
    {content : List UInt8} {x : α} (hx : Reads (shape.read depth) content x) (done : σ) :
    Reads ((RecordField.of name shape value? put).read depth done) content (put done x) :=
  hx.bind_nil (reads_pure (put done x))

variable {fields : List (RecordField σ)}

/-- A field that has not been read is read behind its name, and then the fields behind it. -/
theorem reads_byKey_succ {length : Nat} {field : RecordField σ} {name : String}
    {done done' final : σ} {content rest : List UInt8} (hnames : (fields.map (·.name)).Nodup)
    (hfield : field ∈ fields) (hname : field.name = name)
    (hlength : (Utf8.toBytes name).length < Nat.pow 2 32) (hnew : field.isRead done = false)
    (hcontent : Reads (field.read depth done) content done')
    (hrest : Reads (byKey fields depth length done') rest final) :
    Reads (byKey fields depth (length + 1) done)
      (textBytes (Utf8.toBytes name) ++ (content ++ rest)) final := by
  subst hname
  have hkey : Reads (keyed fields depth) (textBytes (Utf8.toBytes field.name)) (some field) := by
    refine (reads_textBytes hlength).bind_nil ?_
    dsimp only
    rw [find?_eq_some_of_nodup hnames hfield]
    exact reads_pure _
  refine hkey.bind ?_
  dsimp only
  rw [hnew]
  exact hcontent.bind hrest

theorem reads_record {name : String} {blank done : σ} {finish : σ → Except DecodeError α}
    {length : Nat} {content : List UInt8} {x : α} (hlength : length < Nat.pow 2 32)
    (hcontent : Reads (byKey fields depth length blank) content done) (hx : finish done = .ok x) :
    Reads ((record name fields blank finish).read (depth + 1)) (mapHeader length ++ content) x := by
  refine (reads_mapHeader hlength).bind (hcontent.bind_nil ?_)
  rw [hx]
  exact reads_pure x

end Shape

end DialogScript.MessagePack
