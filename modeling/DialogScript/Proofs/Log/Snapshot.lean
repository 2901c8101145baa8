import DialogScript.Log.Snapshot
import DialogScript.Proofs.MessagePack.ReadBack

/-!
# Snapshots that are read back

A snapshot is the log and nothing less: the log is read back from its bytes, whatever stands behind
them, and a snapshot that is cut short is no snapshot, since the reading never comes to an end
before the last byte.

## Main definitions

* `Log.Fits`: a log that the format has room for
* `Entry.draft`: the fields of an entry

## Main results

* `Entry.reads_toBytes`, `Log.reads_toBytes`: entries and logs are read back from their bytes
* `Log.ofSaved_toBytes_append`: so is a log from its snapshot
* `Log.ofSaved_of_proper_prefix`: a part of a snapshot is an error
-/

namespace DialogScript

open MessagePack

/-- The texts of the entry have fewer than `2 ^ 32` bytes. -/
structure Entry.Fits (e : Entry) : Prop where
  actor : (Utf8.toBytes e.site.actor).length < Nat.pow 2 32
  dialog : (Utf8.toBytes e.site.dialog).length < Nat.pow 2 32

/-- The log has fewer than `2 ^ 32` entries, and their texts have fewer than `2 ^ 32` bytes each. -/
structure Log.Fits (log : Log) : Prop where
  length : log.entries.length < Nat.pow 2 32
  entries : ∀ e ∈ log.entries, e.Fits

instance (e : Entry) : Decidable e.Fits :=
  decidable_of_iff (_ ∧ _) ⟨fun h => ⟨h.1, h.2⟩, fun h => ⟨h.actor, h.dialog⟩⟩

instance (log : Log) : Decidable log.Fits :=
  decidable_of_iff (_ ∧ _) ⟨fun h => ⟨h.1, h.2⟩, fun h => ⟨h.length, h.entries⟩⟩

/-! ### Entries -/

theorem Scope.reads_snapshotName (scope : Scope) (depth : Nat) :
    Reads (Scope.shape.read depth) (snapshotText scope.snapshotName) scope := by
  have hnames : ((Scope.all.map fun s => (s.snapshotName, s)).map (·.1)).Nodup := by decide
  have hscope : (scope.snapshotName, scope) ∈ Scope.all.map fun s => (s.snapshotName, s) :=
    List.mem_map_of_mem scope.mem_all
  refine Shape.reads_variant hnames hscope ?_
  cases scope <;> decide

/-- All fields of an entry. -/
def Entry.draft (e : Entry) : Draft := ⟨e.scope, e.site.actor, e.site.dialog, e.site.line.toNat⟩

/-- An entry is made up of its fields. -/
theorem Entry.ofDraft_draft (e : Entry) : Entry.ofDraft e.draft = .ok e := by
  change Except.ok (Entry.mk e.scope ⟨_, _, UInt32.ofNat e.site.line.toNat⟩) = _
  rw [UInt32.ofNat_toNat]

/-- An entry is read back from its bytes. -/
theorem Entry.reads_toBytes {e : Entry} (he : e.Fits) (depth : Nat) :
    Reads (Entry.shape.read (depth + 1)) e.toBytes e := by
  have hnames : (Entry.fields.map (·.name)).Nodup := by decide
  have hbound : e.site.line.toNat < Nat.pow 2 32 := e.site.line.toNat_lt
  -- The fields from the last one to the first, each before those behind it.
  have hline : Reads (Shape.byKey fields depth 1 ⟨e.scope, e.site.actor, e.site.dialog, none⟩)
      (snapshotText "line" ++ (unsignedBytes e.site.line.toNat ++ [])) e.draft :=
    Shape.reads_byKey_succ hnames (List.mem_of_getElem? (i := 3) rfl) rfl (by decide) rfl
      (Shape.reads_field (Shape.reads_natural hbound (Nat.lt_trans hbound (by decide))) _)
      (reads_pure e.draft)
  have hdialog : Reads (Shape.byKey fields depth 2 ⟨e.scope, e.site.actor, none, none⟩)
      (snapshotText "dialog" ++ (snapshotText e.site.dialog ++ _)) e.draft :=
    Shape.reads_byKey_succ hnames (List.mem_of_getElem? (i := 2) rfl) rfl (by decide) rfl
      (Shape.reads_field (Shape.reads_text he.dialog) _) hline
  have hactor : Reads (Shape.byKey fields depth 3 ⟨e.scope, none, none, none⟩)
      (snapshotText "actor_key" ++ (snapshotText e.site.actor ++ _)) e.draft :=
    Shape.reads_byKey_succ hnames (List.mem_of_getElem? (i := 1) rfl) rfl (by decide) rfl
      (Shape.reads_field (Shape.reads_text he.actor) _) hdialog
  have hscope : Reads (Shape.byKey fields depth 4 {})
      (snapshotText "mode" ++ (snapshotText e.scope.snapshotName ++ _)) e.draft :=
    Shape.reads_byKey_succ hnames (List.mem_of_getElem? (i := 0) rfl) rfl (by decide) rfl
      (Shape.reads_field (Scope.reads_snapshotName e.scope depth) _) hactor
  have hrecord : Reads (Entry.shape.read (depth + 1)) _ e :=
    Shape.reads_record (by decide) hscope e.ofDraft_draft
  simpa only [Entry.toBytes, List.append_assoc, List.append_nil] using hrecord

/-- What is read as an entry is read as that entry before any more bytes. -/
theorem Entry.steady_shape : Entry.shape.Steady := by
  refine Shape.steady_record ?_ _ _ _
  simp only [Entry.fields, List.forall_mem_cons]
  exact ⟨.of (Shape.steady_variant _ _), .of Shape.steady_text, .of Shape.steady_text,
    .of (Shape.steady_natural 32), fun _ hnone => absurd hnone List.not_mem_nil⟩

/-! ### Logs -/

namespace Log

/-- A log is read back from its bytes. Nothing in it lies in more than three other values. -/
theorem reads_toBytes {log : Log} (hlog : log.Fits) (depth : Nat) :
    Reads (Log.shape.read (depth + 3)) log.toBytes log := by
  have hentries : Reads ((Shape.sequence Entry.shape).read (depth + 2))
      (arrayHeader log.entries.length ++ log.entries.flatMap Entry.toBytes) log.entries :=
    Shape.reads_sequence hlog.length fun e he => Entry.reads_toBytes (hlog.entries e he) depth
  have hrecord : Reads (Log.shape.read (depth + 3))
      (mapHeader 1 ++ (snapshotText "entries" ++ (_ ++ []))) log :=
    Shape.reads_record (by decide)
      (Shape.reads_byKey_succ (by decide) (.head _) rfl (by decide) rfl
        (Shape.reads_field hentries none) (reads_pure (some log.entries))) rfl
  simpa only [Log.toBytes, List.append_assoc, List.append_nil] using hrecord

/-- What is read as a log is read as that log before any more bytes. -/
theorem steady_shape : Log.shape.Steady :=
  have hentries : (Shape.sequence Entry.shape).Steady := Shape.steady_sequence Entry.steady_shape
  Shape.steady_record (List.forall_mem_singleton.mpr (.of hentries)) _ _ _

theorem ofSaved_of_read {content rest : List UInt8} {log : Log}
    (hread : Log.shape.read maxDepth content = .ok (log, rest)) : ofSaved content = .ok log := by
  rw [ofSaved, ofBytes, hread]
  rfl

/-- A log is loaded from its bytes, with repetitions or without. -/
theorem ofSaved_toBytes {log : Log} (hlog : log.Fits) : ofSaved log.toBytes = .ok log := by
  have hread := reads_toBytes hlog 1020 []
  rw [List.append_nil] at hread
  exact ofSaved_of_read hread

/-- A snapshot is read as the log, whatever stands behind it. -/
theorem ofSaved_toBytes_append {log : Log} (hlog : log.Fits) (rest : List UInt8) :
    ofSaved (log.toBytes ++ rest) = .ok log :=
  ofSaved_of_read (reads_toBytes hlog 1020 rest)

/-- Entries may repeat, and a byte that begins no value may follow. -/
theorem ofSaved_of_repeated_entry :
    Log.Fits ⟨[⟨.once, "guy", "bar", 300⟩, ⟨.once, "guy", "bar", 300⟩]⟩ ∧
      ofSaved (toBytes ⟨[⟨.once, "guy", "bar", 300⟩, ⟨.once, "guy", "bar", 300⟩]⟩ ++ [0xc1]) =
        .ok ⟨[⟨.once, "guy", "bar", 300⟩, ⟨.once, "guy", "bar", 300⟩]⟩ := by
  have hfits : Log.Fits ⟨[⟨.once, "guy", "bar", 300⟩, ⟨.once, "guy", "bar", 300⟩]⟩ := by decide
  exact ⟨hfits, ofSaved_toBytes_append hfits [0xc1]⟩

/-- A part of a snapshot is an error. -/
theorem ofSaved_of_proper_prefix {log : Log} (hlog : log.Fits) {part : List UInt8}
    (hpart : part <+: log.toBytes) (hproper : part ≠ log.toBytes) :
    ∃ message, ofSaved part = .error { kind := .serialization message } := by
  obtain ⟨rest, hrest⟩ := hpart
  have hreads : Reads (Log.shape.read maxDepth) (part ++ rest) log :=
    hrest ▸ reads_toBytes hlog 1020
  obtain ⟨e, herror⟩ := hreads.error_of_prefix (steady_shape maxDepth) <| by
    rintro rfl
    exact hproper ((List.append_nil part).symm.trans hrest)
  refine ⟨e.message, ?_⟩
  rw [ofSaved, ofBytes, herror]
  rfl

/-- A snapshot that ends between two entries is an error too. -/
theorem ofSaved_of_missing_entry :
    (toBytes ⟨[⟨.once, "guy", "bar", 3⟩, ⟨.tempOnce, "", "", 0⟩]⟩).take 52 =
        mapHeader 1 ++ snapshotText "entries" ++ arrayHeader 2 ++
          Entry.toBytes ⟨.once, "guy", "bar", 3⟩ ∧
      ∃ message, ofSaved
        ((toBytes ⟨[⟨.once, "guy", "bar", 3⟩, ⟨.tempOnce, "", "", 0⟩]⟩).take 52) =
          .error { kind := .serialization message } := by
  have hfits : Log.Fits ⟨[⟨.once, "guy", "bar", 3⟩, ⟨.tempOnce, "", "", 0⟩]⟩ := by decide
  exact ⟨by decide, ofSaved_of_proper_prefix hfits (List.take_prefix 52 _) (by decide)⟩

end Log

end DialogScript
