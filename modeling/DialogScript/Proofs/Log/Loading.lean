import DialogScript.Proofs.Log.History
import DialogScript.Proofs.Log.Snapshot
import DialogScript.Proofs.MessagePack.Parts

/-!
# Repetitions in snapshots

A log that is loaded has the entries of the snapshot, as they stand there one behind the other: none
is left out, and none is looked for among those before it. So the law of all other ways to a log,
that no entry is in it twice, holds of a loaded log just when the snapshot does not tell an entry
twice, and it is just then that recording the entries of the log one by one gives the log.

## Main definitions

* `Entry.StandsFor`: what bytes in a snapshot stand for

## Main results

* `Log.exists_pieces_of_ofSaved`: the entries of a loaded log stand in the snapshot
* `Log.nodup_ofSaved_iff`: when a loaded log has no repetitions
-/

namespace DialogScript

open MessagePack

/-! ### Lists without repetitions -/

section Correspondence

variable {α β : Type} {R : α → β → Prop} {xs : List α} {ys : List β}

theorem exists_of_mem_left (h : List.Forall₂ R xs ys) {x : α} (hx : x ∈ xs) :
    ∃ y ∈ ys, R x y := by
  induction h with
  | nil => cases hx
  | cons hxy _ ih =>
      rcases List.mem_cons.mp hx with rfl | hx
      · exact ⟨_, List.mem_cons_self, hxy⟩
      · obtain ⟨y, hy, hxy⟩ := ih hx
        exact ⟨y, List.mem_cons_of_mem _ hy, hxy⟩

/-- Where each `x` stands for one `y` only, no `y` is repeated just when no two of the `x` stand for
the same. -/
theorem nodup_iff_of_forall₂ (h : List.Forall₂ R xs ys) (hunique : ∀ x y z, R x y → R x z → y = z) :
    ys.Nodup ↔ xs.Pairwise fun x x' => ∀ y, R x y → ¬R x' y := by
  induction h with
  | nil => exact ⟨fun _ => .nil, fun _ => .nil⟩
  | @cons x y xs ys hxy hrest ih =>
      rw [List.nodup_cons, List.pairwise_cons, ih]
      refine and_congr_left fun _ => ?_
      constructor
      · intro hfresh x' hx' z hxz hx'z
        obtain ⟨y', hy', hx'y'⟩ := exists_of_mem_left hrest hx'
        obtain rfl := hunique x y z hxy hxz
        exact hfresh (hunique x' y y' hx'z hx'y' ▸ hy')
      · intro hdistinct hy
        obtain ⟨x', hx', hx'y⟩ := exists_of_mem_left hrest.flip hy
        exact hdistinct x' hx' y hxy hx'y

end Correspondence

namespace Log

theorem extend_of_nodup {log : Log} {es : List Entry} (hnodup : (log.entries ++ es).Nodup) :
    log.extend es = ⟨log.entries ++ es⟩ := by
  induction es generalizing log with
  | nil => rw [List.append_nil]; rfl
  | cons e es ih =>
      have hnew : e ∉ log.entries := fun hold =>
        List.disjoint_of_nodup_append hnodup hold List.mem_cons_self
      have hentries := entries_insert_of_not_mem hnew
      change (log.insert e).extend es = _
      rw [ih (by rwa [hentries, List.append_assoc]), hentries, List.append_assoc]
      rfl

/-- The entries of a log are recorded as that log just when none of them is repeated. -/
theorem ofList_entries_eq_iff {log : Log} : ofList log.entries = log ↔ log.entries.Nodup := by
  constructor
  · intro hlog
    rw [← hlog]
    exact (firstOccurrences_ofList log.entries).nodup
  · exact fun hnodup => extend_of_nodup hnodup

end Log

/-! ### Snapshots -/

/-- Where a snapshot tells an entry, these bytes tell the entry `e`. -/
def Entry.StandsFor (piece : List UInt8) (e : Entry) : Prop :=
  Reads (Entry.shape.read (maxDepth - 2)) piece e

namespace Log

theorem read_of_ofSaved {content : List UInt8} {log : Log} (hload : ofSaved content = .ok log) :
    ∃ rest, Log.shape.read maxDepth content = .ok (log, rest) := by
  rw [ofSaved, ofBytes] at hload
  cases hread : Log.shape.read maxDepth content with
  | error e =>
      rw [hread] at hload
      cases hload
  | ok result =>
      rw [hread] at hload
      obtain rfl := Except.ok.inj hload
      exact ⟨result.2, rfl⟩

/-- The entries that have been read, if they have, stand in `content`. -/
def Told (content : List UInt8) (entries? : Option (List Entry)) : Prop :=
  ∀ entries ∈ entries?, ∃ before pieces after, content = before ++ (pieces.flatten ++ after) ∧
    List.Forall₂ Entry.StandsFor pieces entries

theorem told_of_sequence {content bs rest : List UInt8} {entries : List Entry}
    (hbs : bs <:+ content)
    (hread : (Shape.sequence Entry.shape).read (maxDepth - 1) bs = .ok (entries, rest)) :
    Told content (some entries) := by
  obtain ⟨before, rfl⟩ := hbs
  obtain ⟨header, pieces, rfl, hpieces⟩ :=
    Shape.exists_pieces_of_sequence Entry.steady_shape hread
  intro entries' hentries
  obtain rfl := Option.some.inj hentries
  exact ⟨before ++ header, pieces, rest, (List.append_assoc _ _ _).symm, hpieces⟩

/-- The entries of a loaded log stand in the snapshot, in their order. -/
theorem exists_pieces_of_ofSaved {content : List UInt8} {log : Log}
    (hload : ofSaved content = .ok log) :
    ∃ before pieces after, content = before ++ (pieces.flatten ++ after) ∧
      List.Forall₂ Entry.StandsFor pieces log.entries := by
  obtain ⟨rest, hread⟩ := read_of_ofSaved hload
  have hsequence : (Shape.sequence Entry.shape).Steady := Shape.steady_sequence Entry.steady_shape
  obtain ⟨entries?, htold, hfinish⟩ :=
    Shape.record_induct (List.forall_mem_singleton.mpr (.of hsequence))
      (List.forall_mem_singleton.mpr (.of fun _ _ _ _ hbs _ hread => told_of_sequence hbs hread))
      (fun _ hnone => by cases hnone) hread
  cases entries? with
  | none => cases hfinish
  | some entries =>
      obtain rfl := Except.ok.inj hfinish
      exact htold entries rfl

/-- A loaded log tells what the snapshot tells, entry by entry. It is a set of facts just when the
snapshot tells no entry twice, which is when recording its entries gives the log. -/
theorem nodup_ofSaved_iff {content : List UInt8} {log : Log} (hload : ofSaved content = .ok log) :
    ∃ before pieces after, content = before ++ (pieces.flatten ++ after) ∧
      List.Forall₂ Entry.StandsFor pieces log.entries ∧
      (log.entries.Nodup ↔
        pieces.Pairwise fun piece piece' =>
          ∀ e, Entry.StandsFor piece e → ¬Entry.StandsFor piece' e) ∧
      (log.entries.Nodup ↔ ofList log.entries = log) := by
  obtain ⟨before, pieces, after, hcontent, hpieces⟩ := exists_pieces_of_ofSaved hload
  exact ⟨before, pieces, after, hcontent, hpieces,
    nodup_iff_of_forall₂ hpieces fun _ _ _ hx hy => hx.unique hy, ofList_entries_eq_iff.symm⟩

/-- A log with the same entry twice. -/
def twice : Log := ⟨[⟨.once, "guy", "bar", 3⟩, ⟨.once, "guy", "bar", 3⟩]⟩

theorem ofSaved_toBytes_twice : ofSaved twice.toBytes = .ok twice := ofSaved_toBytes (by decide)

/-- The bytes of both entries stand for the same one. -/
theorem nodup_ofSaved_twice :
    ofSaved twice.toBytes = .ok twice ∧
      ∃ before pieces after, twice.toBytes = before ++ (pieces.flatten ++ after) ∧
        List.Forall₂ Entry.StandsFor pieces twice.entries ∧
        (¬pieces.Pairwise fun piece piece' =>
          ∀ e, Entry.StandsFor piece e → ¬Entry.StandsFor piece' e) ∧
        ofList twice.entries ≠ twice := by
  have hrepeated : ¬twice.entries.Nodup := by decide
  obtain ⟨before, pieces, after, hcontent, hpieces, hnodup, hcollected⟩ :=
    nodup_ofSaved_iff ofSaved_toBytes_twice
  exact ⟨ofSaved_toBytes_twice, before, pieces, after, hcontent, hpieces,
    mt hnodup.mpr hrepeated, mt hcollected.mpr hrepeated⟩

/-- Not every log that is loaded is a set of facts. -/
theorem not_nodup_of_ofSaved :
    ¬∀ content log, ofSaved content = .ok log → log.entries.Nodup :=
  fun hnodup => absurd (hnodup twice.toBytes twice ofSaved_toBytes_twice) (by decide)

end Log

end DialogScript
