import DialogScript.Proofs.MessagePack.Streaming
import Mathlib.Data.List.Forall2

/-!
# Parts of what is read

What a steady decoder takes off some bytes can be taken off alone, and stands for one value only. So
the bytes of a sequence fall into a header and one piece for each item, and each item is what its
piece stands for.

The fields of a record may be read in any order, with others between them. What is known of the
fields that have been read is an invariant: it holds of a record without fields, and each field is
read from some suffix of the bytes.

## Main results

* `Reads.unique`: bytes stand for one value
* `Shape.exists_pieces_of_sequence`: the items of a sequence and their pieces
* `Shape.record_induct`: what the reading of each field keeps holds of the fields of a record
-/

namespace DialogScript.MessagePack

variable {α σ : Type} {d : Decoder α}

theorem Reads.unique {taken : List UInt8} {x y : α} (hx : Reads d taken x) (hy : Reads d taken y) :
    x = y := by
  have hboth := hy []
  rw [hx] at hboth
  exact (Prod.mk.inj (Except.ok.inj hboth)).1

/-- What is left is a suffix of what was there. -/
theorem Steady.suffix (hd : Steady d) {bs rest : List UInt8} {x : α}
    (hread : d bs = .ok (x, rest)) : rest <:+ bs := by
  obtain ⟨taken, rfl, -⟩ := hd hread
  exact List.suffix_append taken rest

theorem eq_ok_of_lift {result : Except DecodeError α} {bs rest : List UInt8} {x : α}
    (hread : (liftM result : Decoder α) bs = .ok (x, rest)) : result = .ok x := by
  cases result with
  | error e => cases hread
  | ok y =>
      obtain ⟨rfl, -⟩ := Prod.mk.inj (Except.ok.inj hread)
      rfl

/-- Values that stand one behind the other are read from pieces that do. -/
theorem exists_pieces_of_replicated (hd : Steady d) {n : Nat} {bs rest : List UInt8} {xs : List α}
    (hread : replicated d n bs = .ok (xs, rest)) :
    ∃ pieces : List (List UInt8),
      bs = pieces.flatten ++ rest ∧ List.Forall₂ (Reads d) pieces xs := by
  induction n generalizing bs xs with
  | zero =>
      obtain ⟨rfl, rfl⟩ := Prod.mk.inj (Except.ok.inj hread)
      exact ⟨[], rfl, .nil⟩
  | succ n ih =>
      obtain ⟨x, left, hx, hmore⟩ := exists_of_bind hread
      obtain ⟨xs, left', hxs, hdone⟩ := exists_of_bind hmore
      obtain ⟨rfl, rfl⟩ := Prod.mk.inj (Except.ok.inj hdone)
      obtain ⟨piece, rfl, hpiece⟩ := hd hx
      obtain ⟨pieces, rfl, hpieces⟩ := ih hxs
      refine ⟨piece :: pieces, ?_, hpieces.cons hpiece⟩
      rw [List.flatten_cons, List.append_assoc]

namespace Shape

theorem exists_pieces_of_sequence {item : Shape α} (hitem : item.Steady) {depth : Nat}
    {bs rest : List UInt8} {xs : List α}
    (hread : (sequence item).read (depth + 1) bs = .ok (xs, rest)) :
    ∃ (header : List UInt8) (pieces : List (List UInt8)),
      bs = header ++ (pieces.flatten ++ rest) ∧
        List.Forall₂ (Reads (item.read depth)) pieces xs := by
  obtain ⟨h, left, hhead, hmore⟩ := exists_of_bind hread
  obtain ⟨header, rfl, -⟩ := steady_head hhead
  split at hmore
  · obtain ⟨pieces, rfl, hpieces⟩ := exists_pieces_of_replicated (hitem depth) hmore
    exact ⟨header, pieces, rfl, hpieces⟩
  · obtain ⟨rfl, rfl⟩ := Prod.mk.inj (Except.ok.inj hmore)
    exact ⟨header, [], rfl, .nil⟩
  · cases hmore
  · obtain ⟨-, left, -, hmore⟩ := exists_of_bind hmore
    cases hmore

end Shape

/-! ### Invariants of records -/

/-- Reading the field from some suffix of `whole` keeps `P` of the fields that have been read. -/
def RecordField.Keeps (field : RecordField σ) (P : σ → Prop) (whole : List UInt8) (depth : Nat) :
    Prop :=
  ∀ ⦃bs rest : List UInt8⦄ ⦃done done' : σ⦄, bs <:+ whole → P done →
    field.read depth done bs = .ok (done', rest) → P done'

theorem RecordField.Keeps.of {name : String} {shape : Shape α} {value? : σ → Option α}
    {put : σ → α → σ} {P : σ → Prop} {whole : List UInt8} {depth : Nat}
    (hput : ∀ ⦃bs rest : List UInt8⦄ ⦃x : α⦄ ⦃done : σ⦄, bs <:+ whole → P done →
      shape.read depth bs = .ok (x, rest) → P (put done x)) :
    (RecordField.of name shape value? put).Keeps P whole depth := by
  intro bs rest done done' hbs hdone hread
  obtain ⟨x, left, hx, hread⟩ := exists_of_bind hread
  obtain ⟨rfl, -⟩ := Prod.mk.inj (Except.ok.inj hread)
  exact hput hbs hdone hx

namespace Shape

variable {P : σ → Prop} {whole : List UInt8} {depth : Nat} {fields : List (RecordField σ)}

theorem keeps_inOrder (hsteady : ∀ field ∈ fields, field.Steady)
    (hkeeps : ∀ field ∈ fields, field.Keeps P whole depth) {name : String} {count length : Nat}
    {bs rest : List UInt8} {done final : σ} (hbs : bs <:+ whole) (hdone : P done)
    (hread : inOrder name depth count length fields done bs = .ok (final, rest)) : P final := by
  induction length generalizing count fields bs done with
  | zero =>
      cases fields with
      | nil =>
          obtain ⟨rfl, -⟩ := Prod.mk.inj (Except.ok.inj hread)
          exact hdone
      | cons field fields => cases hread
  | succ length ih =>
      cases fields with
      | nil => cases hread
      | cons field fields =>
          obtain ⟨hfield, hrest⟩ := List.forall_mem_cons.mp hsteady
          obtain ⟨hkeep, hkeeps⟩ := List.forall_mem_cons.mp hkeeps
          obtain ⟨done', left, hfirst, hread⟩ := exists_of_bind hread
          exact ih hrest hkeeps (((hfield depth done).suffix hfirst).trans hbs)
            (hkeep hbs hdone hfirst) hread

theorem keeps_byKey (hsteady : ∀ field ∈ fields, field.Steady)
    (hkeeps : ∀ field ∈ fields, field.Keeps P whole depth) {length : Nat}
    {bs rest : List UInt8} {done final : σ} (hbs : bs <:+ whole) (hdone : P done)
    (hread : byKey fields depth length done bs = .ok (final, rest)) : P final := by
  induction length generalizing bs done with
  | zero =>
      obtain ⟨rfl, -⟩ := Prod.mk.inj (Except.ok.inj hread)
      exact hdone
  | succ length ih =>
      obtain ⟨key?, left, hkey, hread⟩ := exists_of_bind hread
      have hleft : left <:+ whole := ((steady_keyed fields depth).suffix hkey).trans hbs
      split at hread
      · obtain ⟨_, behind, hskip, hread⟩ := exists_of_bind hread
        exact ih (((steady_skip depth).suffix hskip).trans hleft) hdone hread
      · have hfield := mem_of_keyed hkey
        split at hread
        · cases hread
        · obtain ⟨done', behind, hvalue, hread⟩ := exists_of_bind hread
          exact ih (((hsteady _ hfield depth done).suffix hvalue).trans hleft)
            (hkeeps _ hfield hleft hdone hvalue) hread

/-- What holds of a record without fields and is kept by the reading of each field holds of the
fields that a record is made of. -/
theorem record_induct (hsteady : ∀ field ∈ fields, field.Steady)
    (hkeeps : ∀ field ∈ fields, field.Keeps P whole depth) {name : String} {blank : σ}
    (hblank : P blank) {finish : σ → Except DecodeError α} {rest : List UInt8} {x : α}
    (hread : (record name fields blank finish).read (depth + 1) whole = .ok (x, rest)) :
    ∃ done, P done ∧ finish done = .ok x := by
  obtain ⟨h, left, hhead, hread⟩ := exists_of_bind hread
  have hleft : left <:+ whole := steady_head.suffix hhead
  split at hread
  · obtain ⟨done, behind, hdone, hfinish⟩ := exists_of_bind hread
    exact ⟨done, keeps_inOrder hsteady hkeeps hleft hblank hdone, eq_ok_of_lift hfinish⟩
  · obtain ⟨done, behind, hdone, hfinish⟩ := exists_of_bind hread
    exact ⟨done, keeps_byKey hsteady hkeeps hleft hblank hdone, eq_ok_of_lift hfinish⟩
  · split at hread
    · cases hread
    · cases hread
  · obtain ⟨-, behind, -, hread⟩ := exists_of_bind hread
    cases hread

end Shape

end DialogScript.MessagePack
