import DialogScript.MessagePack.Shape

/-!
# Decoders before more bytes

A decoder takes bytes off the front and looks at no others. So what it reads from some bytes it
reads from them whatever more bytes come behind, and leaves those too. Where it needs more bytes
than there are, it fails.

The law is kept by sequences of decoders, so it is proved by one passage through the decoders of the
format, and then through the shapes of documents.

## Main definitions

* `Reads`: a decoder reads a value from just these bytes
* `Steady`: what is read is read before any more bytes
* `Shape.Steady`, `RecordField.Steady`: the law for the values of a shape and of a field

## Main results

* `steady_head`, `steady_skip`: heads are read and values passed over before any more bytes
* `Shape.steady_sequence`, `Shape.steady_record`: sequences and records of steady parts are steady
-/

namespace DialogScript.MessagePack

variable {α β σ : Type}

/-- The decoder reads `x` from just the bytes `taken`, and leaves what comes behind. -/
def Reads (d : Decoder α) (taken : List UInt8) (x : α) : Prop :=
  ∀ rest, d (taken ++ rest) = .ok (x, rest)

/-- What the decoder reads from some bytes, it reads from those at the front, whatever bytes come
behind them. -/
def Steady (d : Decoder α) : Prop :=
  ∀ ⦃bs rest : List UInt8⦄ ⦃x : α⦄, d bs = .ok (x, rest) →
    ∃ taken, bs = taken ++ rest ∧ Reads d taken x

/-! ### Sequences of decoders -/

theorem reads_pure (x : α) : Reads (pure x : Decoder α) [] x := fun _ => rfl

theorem steady_pure (x : α) : Steady (pure x : Decoder α) := by
  intro bs rest y hread
  obtain ⟨rfl, rfl⟩ := Prod.mk.inj (Except.ok.inj hread)
  exact ⟨[], rfl, reads_pure x⟩

theorem steady_throw (e : DecodeError) : Steady (throw e : Decoder α) :=
  fun _ _ _ hread => by cases hread

/-- After a failure nothing is read, whatever was to be done. -/
theorem steady_throw_bind (e : DecodeError) (f : α → Decoder β) : Steady (throw e >>= f) :=
  fun _ _ _ hread => by cases hread

theorem steady_lift (x : Except DecodeError α) : Steady (liftM x : Decoder α) := by
  cases x with
  | ok x => exact steady_pure x
  | error e => exact steady_throw e

theorem exists_of_bind {d : Decoder α} {f : α → Decoder β} {bs rest : List UInt8} {x : β}
    (hread : (d >>= f) bs = .ok (x, rest)) :
    ∃ a left, d bs = .ok (a, left) ∧ f a left = .ok (x, rest) := by
  change (d bs >>= fun result => f result.1 result.2) = _ at hread
  cases hfirst : d bs with
  | error e =>
      rw [hfirst] at hread
      cases hread
  | ok result =>
      rw [hfirst] at hread
      exact ⟨result.1, result.2, rfl, hread⟩

theorem bind_apply_of_ok {d : Decoder α} {f : α → Decoder β} {bs left : List UInt8} {a : α}
    (hfirst : d bs = .ok (a, left)) : (d >>= f) bs = f a left := by
  change (d bs >>= fun result => f result.1 result.2) = _
  rw [hfirst]
  rfl

theorem Reads.bind {d : Decoder α} {f : α → Decoder β} {taken taken' : List UInt8} {a : α} {b : β}
    (hd : Reads d taken a) (hf : Reads (f a) taken' b) : Reads (d >>= f) (taken ++ taken') b := by
  intro rest
  rw [List.append_assoc, bind_apply_of_ok (hd _)]
  exact hf rest

/-- What follows a steady decoder has to be steady for what that one can read. -/
theorem Steady.bind_of_read {d : Decoder α} {f : α → Decoder β} (hd : Steady d)
    (hf : ∀ bs a left, d bs = .ok (a, left) → Steady (f a)) : Steady (d >>= f) := by
  intro bs rest x hread
  obtain ⟨a, left, hfirst, hsecond⟩ := exists_of_bind hread
  obtain ⟨taken, rfl, htaken⟩ := hd hfirst
  obtain ⟨taken', rfl, htaken'⟩ := hf _ a left hfirst hsecond
  exact ⟨taken ++ taken', (List.append_assoc _ _ _).symm, htaken.bind htaken'⟩

theorem Steady.bind {d : Decoder α} {f : α → Decoder β} (hd : Steady d) (hf : ∀ a, Steady (f a)) :
    Steady (d >>= f) := hd.bind_of_read fun _ a _ _ => hf a

theorem Steady.map {d : Decoder α} (hd : Steady d) (f : α → β) : Steady (f <$> d) := by
  rw [← bind_pure_comp]
  exact hd.bind fun a => steady_pure (f a)

/-! ### Bytes and heads -/

/-- What is taken off bytes stands in front of the rest. -/
theorem eq_append_of_front? {n : Nat} {bs taken rest : List UInt8}
    (hfront : front? n bs = some (taken, rest)) : bs = taken ++ rest ∧ taken.length = n := by
  induction n generalizing bs taken with
  | zero =>
      obtain ⟨rfl, rfl⟩ := Prod.mk.inj (Option.some.inj hfront)
      exact ⟨rfl, rfl⟩
  | succ n ih =>
      cases bs with
      | nil => cases hfront
      | cons b bs =>
          obtain ⟨⟨tail, left⟩, hrest, hcons⟩ := Option.map_eq_some_iff.mp hfront
          obtain ⟨rfl, rfl⟩ := Prod.mk.inj hcons
          obtain ⟨rfl, hlength⟩ := ih hrest
          exact ⟨rfl, congrArg Nat.succ hlength⟩

theorem bytes_apply (missing : DecodeError) (n : Nat) (bs : List UInt8) :
    bytes missing n bs = (front? n bs).elim (.error missing) .ok := by
  have hget : (get : Decoder (List UInt8)) bs = .ok (bs, bs) := rfl
  rw [bytes, bind_apply_of_ok hget]
  cases front? n bs <;> rfl

theorem reads_bytes (missing : DecodeError) (content : List UInt8) :
    Reads (bytes missing content.length) content content := by
  intro rest
  rw [bytes_apply, front?_append]
  rfl

theorem steady_bytes (missing : DecodeError) (n : Nat) : Steady (bytes missing n) := by
  intro bs rest taken hread
  rw [bytes_apply] at hread
  cases hfront : front? n bs with
  | none =>
      rw [hfront] at hread
      cases hread
  | some result =>
      rw [hfront] at hread
      obtain rfl : result = (taken, rest) := Except.ok.inj hread
      obtain ⟨hbytes, rfl⟩ := eq_append_of_front? hfront
      exact ⟨taken, hbytes, reads_bytes missing taken⟩

theorem steady_number (width : Nat) : Steady (number width) :=
  (steady_bytes .missingNumber width).bind fun _ => steady_pure _

theorem reads_marker (byte : UInt8) : Reads marker [byte] (.ofByte byte) := fun _ => rfl

theorem steady_marker : Steady marker := by
  intro bs rest m hread
  cases bs with
  | nil => cases hread
  | cons byte bs =>
      obtain ⟨rfl, rfl⟩ := Prod.mk.inj (Except.ok.inj hread)
      exact ⟨[byte], rfl, reads_marker byte⟩

theorem steady_floating (width : Nat) : Steady (floating width) :=
  (steady_number width).bind fun _ => steady_pure _

theorem Marker.steady_head (m : Marker) : Steady m.head := by
  have hcontent (n : Nat) (f : List UInt8 → Head) :
      Steady (do return f (← bytes .missingContent n)) :=
    (steady_bytes .missingContent n).bind fun _ => steady_pure _
  have hnumber (width : Nat) (f : Nat → Head) : Steady (do return f (← number width)) :=
    (steady_number width).bind fun _ => steady_pure _
  cases m with
  | nil | bool | shortUnsigned | shortSigned | shortArray | shortMap | shortExtension =>
      exact steady_pure _
  | reserved => exact steady_throw _
  | shortText length => exact hcontent length .text
  | unsigned width => exact hnumber width .unsigned
  | signed width => exact hnumber width fun n => .signed (twosComplement width n)
  | float width => exact (steady_floating width).bind fun _ => steady_pure _
  | text width => exact (steady_number width).bind fun n => hcontent n .text
  | binary width => exact (steady_number width).bind fun n => hcontent n .binary
  | array width => exact hnumber width .array
  | map width => exact hnumber width .map
  | extension width => exact hnumber width .extension

theorem steady_head : Steady head := steady_marker.bind Marker.steady_head

/-! ### Values that are passed over -/

theorem steady_nested {inner : Nat → Decoder α} (hinner : ∀ depth, Steady (inner depth))
    (depth : Nat) : Steady (nested inner depth) := by
  cases depth with
  | zero => exact steady_throw _
  | succ depth => exact hinner depth

theorem steady_times {d : Decoder Unit} (hd : Steady d) (n : Nat) : Steady (times n d) := by
  induction n with
  | zero => exact steady_pure _
  | succ n ih => exact hd.bind fun _ => ih

theorem steady_skipRest {inner : Option (Decoder Unit)} (hinner : ∀ d ∈ inner, Steady d)
    (h : Head) : Steady (skipRest inner h) := by
  have hwithin {d : Decoder Unit → Decoder Unit} (hd : ∀ e, Steady e → Steady (d e)) :
      Steady (inner.elim (throw .tooDeep) d) := by
    cases inner with
    | none => exact steady_throw _
    | some e => exact hd e (hinner e rfl)
  cases h with
  | array length => exact hwithin fun e he => steady_times he length
  | map length => exact hwithin fun e he => steady_times he (2 * length)
  | extension length =>
      exact hwithin fun _ _ =>
        ((steady_number 1).map _).bind fun _ => (steady_bytes _ length).map _
  | _ => exact steady_pure _

theorem steady_skip (depth : Nat) : Steady (skip depth) := by
  induction depth with
  | zero => exact steady_head.bind (steady_skipRest fun d hd => by cases hd)
  | succ depth ih =>
      refine steady_head.bind (steady_skipRest fun d hd => ?_)
      obtain rfl := Option.some.inj hd
      exact ih

theorem steady_utf8 (content : List UInt8) : Steady (utf8 content) := by
  rw [utf8]
  split
  · exact steady_pure _
  · exact steady_throw _

theorem Head.steady_check (h : Head) (depth : Nat) : Steady (h.check depth) := by
  cases h with
  | text content => exact (steady_utf8 content).map _
  | array | map | extension => exact steady_nested (fun _ => steady_pure _) depth
  | _ => exact steady_pure _

theorem Head.steady_reject (h : Head) (wanted : Wanted) (depth : Nat) :
    Steady (h.reject wanted depth : Decoder α) :=
  (h.steady_check depth).bind fun _ => steady_throw _

/-! ### Shapes -/

/-- Every value of the shape is read before any more bytes. -/
def Shape.Steady (s : Shape α) : Prop := ∀ depth, MessagePack.Steady (s.read depth)

/-- The field is read before any more bytes. -/
def RecordField.Steady (field : RecordField σ) : Prop :=
  ∀ depth done, MessagePack.Steady (field.read depth done)

theorem RecordField.Steady.of {name : String} {shape : Shape α} {value? : σ → Option α}
    {put : σ → α → σ} (hshape : shape.Steady) : (RecordField.of name shape value? put).Steady :=
  fun depth done => (hshape depth).bind fun x => steady_pure (put done x)

theorem steady_replicated {d : Decoder α} (hd : Steady d) (n : Nat) : Steady (replicated d n) := by
  induction n with
  | zero => exact steady_pure _
  | succ n ih => exact hd.bind fun _ => ih.bind fun _ => steady_pure _

namespace Shape

theorem steady_text : Shape.text.Steady := by
  intro depth
  refine steady_head.bind fun h => ?_
  split
  · exact steady_utf8 _
  · split
    · exact steady_pure _
    · exact steady_throw _
  · exact Head.steady_reject _ _ depth

theorem steady_natural (bits : Nat) : (natural bits).Steady := by
  intro depth
  refine steady_marker.bind fun m => ?_
  dsimp only
  split
  · refine m.steady_head.bind fun h => ?_
    split
    · split
      · exact steady_pure _
      · exact steady_throw _
    · split
      · exact steady_pure _
      · exact steady_throw _
    · exact Head.steady_reject _ _ depth
  · exact steady_throw_bind _ _

theorem steady_named (variants : List (String × α)) (h : Head) (depth : Nat) :
    MessagePack.Steady (named variants h depth) := by
  unfold named
  dsimp only
  split
  · refine ((steady_utf8 _).map _).bind fun _ => ?_
    split
    · exact steady_pure _
    · exact steady_throw _
  · split
    · exact steady_pure _
    · exact steady_throw _
  · split
    · exact steady_pure _
    · exact steady_throw _
  · exact Head.steady_reject _ _ depth

theorem steady_variant (type : String) (variants : List (String × α)) :
    (variant type variants).Steady := by
  intro depth
  refine steady_head.bind fun h => ?_
  split
  · refine steady_head.bind fun inner => (steady_named variants inner depth).bind fun value => ?_
    refine steady_marker.bind fun m => ?_
    split
    · exact steady_pure _
    · exact steady_throw _
  · exact steady_throw _
  · exact steady_named variants _ depth

/-- A sequence of values that are read before any more bytes is read before any more bytes. -/
theorem steady_sequence {item : Shape α} (hitem : item.Steady) : (sequence item).Steady := by
  intro depth
  refine steady_head.bind fun h => ?_
  split
  · exact steady_nested (fun depth => steady_replicated (hitem depth) _) depth
  · exact steady_pure _
  · exact steady_throw _
  · exact Head.steady_reject _ _ depth

variable {fields : List (RecordField σ)}

theorem steady_inOrder (hfields : ∀ field ∈ fields, field.Steady) (name : String)
    (depth count length : Nat) (done : σ) :
    MessagePack.Steady (inOrder name depth count length fields done) := by
  induction length generalizing count fields done with
  | zero =>
      cases fields with
      | nil => exact steady_pure _
      | cons field fields => exact steady_throw _
  | succ length ih =>
      cases fields with
      | nil => exact steady_throw _
      | cons field fields =>
          obtain ⟨hfield, hrest⟩ := List.forall_mem_cons.mp hfields
          exact (hfield depth done).bind fun done' => ih hrest (count + 1) done'

theorem steady_keyed (fields : List (RecordField σ)) (depth : Nat) :
    MessagePack.Steady (keyed fields depth) := by
  refine steady_head.bind fun h => ?_
  split
  · exact steady_pure _
  · exact steady_pure _
  · exact steady_pure _
  · exact Head.steady_reject _ _ depth

theorem mem_of_keyed {depth : Nat} {bs rest : List UInt8} {field : RecordField σ}
    (hread : keyed fields depth bs = .ok (some field, rest)) : field ∈ fields := by
  obtain ⟨h, left, -, hread⟩ := exists_of_bind hread
  split at hread
  · exact List.mem_of_find?_eq_some (Prod.mk.inj (Except.ok.inj hread)).1
  · exact List.mem_of_find?_eq_some (Prod.mk.inj (Except.ok.inj hread)).1
  · exact List.mem_of_getElem? (Prod.mk.inj (Except.ok.inj hread)).1
  · obtain ⟨-, left, -, hread⟩ := exists_of_bind hread
    cases hread

theorem steady_byKey (hfields : ∀ field ∈ fields, field.Steady) (depth length : Nat) (done : σ) :
    MessagePack.Steady (byKey fields depth length done) := by
  induction length generalizing done with
  | zero => exact steady_pure _
  | succ length ih =>
      refine (steady_keyed fields depth).bind_of_read fun bs key? rest hkey => ?_
      split
      · exact (steady_skip depth).bind fun _ => ih done
      · split
        · exact steady_throw _
        · exact (hfields _ (mem_of_keyed hkey) depth done).bind ih

/-- A record of fields that are read before any more bytes is read before any more bytes. -/
theorem steady_record (hfields : ∀ field ∈ fields, field.Steady) (name : String) (blank : σ)
    (finish : σ → Except DecodeError α) : (record name fields blank finish).Steady := by
  intro depth
  refine steady_head.bind fun h => ?_
  split
  · exact (steady_nested (fun depth => steady_inOrder hfields name depth 0 _ blank) depth).bind
      fun done => steady_lift (finish done)
  · exact (steady_nested (fun depth => steady_byKey hfields depth _ blank) depth).bind
      fun done => steady_lift (finish done)
  · split
    · exact steady_throw _
    · exact steady_throw _
  · exact Head.steady_reject _ _ depth

end Shape

end DialogScript.MessagePack
