import DialogScript.Proofs.Log
import Mathlib.Data.List.Induction
import Mathlib.Data.List.Nodup

/-!
# The history of a log

A log is an ordered set: what is recorded comes behind what is there, unless it is there already. So
the log of a list holds its entries in the order in which they first occur, and a list that has been
recorded adds nothing when it is recorded again.

What a log holds after any changes is told by the changes alone: an entry is in the log if some
change recorded it and no later one removed it. One step lemma says what a change keeps, removes and
records, and the law for a history follows by induction.

## Main definitions

* `FirstOccurrences`: the elements of a list without repetitions, in the order of the list
* `Log.Change`, `Log.after`: what can be done with a log, and the log after it
* `Log.RecordedSince`: an entry was recorded, and not removed since

## Main results

* `Log.firstOccurrences_ofList`: the log of a list
* `Log.purgeTempOnce_extend`: forgetting between sessions commutes with recording
* `Log.mem_after`: what a log holds after a history
* `Log.is_ordered_set`: the laws of logs, and what they bar after a history
-/

namespace DialogScript

/-- The elements of `xs` without repetitions, in the order in which they first occur in `xs`. -/
structure FirstOccurrences {α : Type} [DecidableEq α] (xs ys : List α) : Prop where
  nodup : ys.Nodup
  mem_iff : ∀ x, x ∈ ys ↔ x ∈ xs
  order : ys.Pairwise fun x y => xs.idxOf x < xs.idxOf y

namespace Log

/-! ### Recording lists -/

theorem nodup_extend {log : Log} (hlog : log.entries.Nodup) (es : List Entry) :
    (log.extend es).entries.Nodup := by
  obtain ⟨new, hentries, hnodup, hnew⟩ := entries_extend log es
  rw [hentries]
  exact hlog.append hnodup fun e hold hnew' => (hnew e hnew').2 hold

/-- Entries that a log holds add nothing to it. -/
theorem extend_of_subset {log : Log} {es : List Entry} (hes : es ⊆ log.entries) :
    log.extend es = log := by
  induction es with
  | nil => rfl
  | cons e es ih =>
      obtain ⟨he, hrest⟩ := List.cons_subset.mp hes
      change (log.insert e).extend es = log
      rw [insert_of_mem he, ih hrest]

theorem extend_extend_self (log : Log) (es : List Entry) :
    (log.extend es).extend es = log.extend es :=
  extend_of_subset fun _ he => mem_extend.mpr (.inr he)

theorem mem_ofList {es : List Entry} {e : Entry} : e ∈ (ofList es).entries ↔ e ∈ es :=
  mem_extend.trans (or_iff_right List.not_mem_nil)

theorem ofList_extend (xs ys : List Entry) : (ofList xs).extend ys = ofList (xs ++ ys) :=
  extend_extend empty xs ys

/-- The log of a list holds the elements of the list in the order in which they first occur. -/
theorem firstOccurrences_ofList (xs : List Entry) : FirstOccurrences xs (ofList xs).entries := by
  refine ⟨nodup_extend .nil xs, fun _ => mem_ofList, ?_⟩
  induction xs using List.reverseRecOn with
  | nil => exact .nil
  | append_singleton xs x ih =>
      -- What has occurred before keeps its first place.
      have hbefore : (ofList xs).entries.Pairwise
          fun y z => (xs ++ [x]).idxOf y < (xs ++ [x]).idxOf z := by
        refine ih.imp_of_mem fun hy hz hlt => ?_
        rwa [List.idxOf_append_of_mem (mem_ofList.mp hy),
          List.idxOf_append_of_mem (mem_ofList.mp hz)]
      have hconcat : ofList (xs ++ [x]) = (ofList xs).insert x := (ofList_extend xs [x]).symm
      rw [hconcat]
      by_cases hx : x ∈ (ofList xs).entries
      · rwa [insert_of_mem hx]
      · rw [entries_insert_of_not_mem hx]
        refine List.pairwise_append.mpr ⟨hbefore, List.pairwise_singleton _ _, ?_⟩
        intro y hy z hz
        obtain rfl := List.mem_singleton.mp hz
        have hy' := mem_ofList.mp hy
        rw [List.idxOf_append_of_mem hy', List.idxOf_append_of_notMem (mt mem_ofList.mpr hx)]
        exact Nat.lt_add_right _ (List.idxOf_lt_length_of_mem hy')

/-! ### Forgetting -/

theorem mem_purgeTempOnce {log : Log} {e : Entry} :
    e ∈ log.purgeTempOnce.entries ↔ e ∈ log.entries ∧ e.scope ≠ .tempOnce := by
  rw [purgeTempOnce, List.mem_filter, decide_eq_true_eq]

theorem purgeTempOnce_insert_of_tempOnce {e : Entry} (he : e.scope = .tempOnce) (log : Log) :
    (log.insert e).purgeTempOnce = log.purgeTempOnce := by
  by_cases hmem : e ∈ log.entries
  · rw [insert_of_mem hmem]
  · rw [purgeTempOnce, entries_insert_of_not_mem hmem, List.filter_append,
      List.filter_cons_of_neg (by simp [he]), List.filter_nil, List.append_nil, purgeTempOnce]

theorem purgeTempOnce_insert_of_ne {e : Entry} (he : e.scope ≠ .tempOnce) (log : Log) :
    (log.insert e).purgeTempOnce = log.purgeTempOnce.insert e := by
  by_cases hmem : e ∈ log.entries
  · rw [insert_of_mem hmem, insert_of_mem (mem_purgeTempOnce.mpr ⟨hmem, he⟩)]
  · have hmem' : e ∉ log.purgeTempOnce.entries := fun h => hmem (mem_purgeTempOnce.mp h).1
    rw [purgeTempOnce, entries_insert_of_not_mem hmem, List.filter_append,
      List.filter_cons_of_pos (by simp [he]), List.filter_nil]
    exact congrArg Log.mk (entries_insert_of_not_mem hmem').symm

/-- What is forgotten between sessions might as well not have been recorded. -/
theorem purgeTempOnce_extend (log : Log) (es : List Entry) :
    (log.extend es).purgeTempOnce =
      log.purgeTempOnce.extend (es.filter (·.scope ≠ .tempOnce)) := by
  induction es generalizing log with
  | nil => rfl
  | cons e es ih =>
      change ((log.insert e).extend es).purgeTempOnce = _
      by_cases he : e.scope = .tempOnce
      · rw [ih, purgeTempOnce_insert_of_tempOnce he, List.filter_cons_of_neg (by simp [he])]
      · rw [ih, purgeTempOnce_insert_of_ne he, List.filter_cons_of_pos (by simp [he])]
        rfl

/-! ### Histories -/

/-- What can be done with a log. -/
inductive Change
  | record (e : Entry)
  | extend (es : List Entry)
  /-- The log of some entries takes the place of the log. -/
  | collect (es : List Entry)
  | purgeTempOnce
  /-- The log is emptied. -/
  | clear

namespace Change

/-- The entries that a change records. -/
def recorded : Change → List Entry
  | record e => [e]
  | extend es | collect es => es
  | purgeTempOnce | clear => []

/-- The change removes the entry if the log holds it. -/
def Removes (e : Entry) : Change → Prop
  | record _ | extend _ => False
  | collect _ | clear => True
  | purgeTempOnce => e.scope = .tempOnce

end Change

/-- The log after a change. -/
def change (log : Log) : Change → Log
  | .record e => (log.record e).2
  | .extend es => log.extend es
  | .collect es => ofList es
  | .purgeTempOnce => log.purgeTempOnce
  | .clear => empty

/-- The log after some changes. -/
def after (log : Log) (cs : List Change) : Log := cs.foldl change log

/-- Some change recorded the entry, and no later one removed it. -/
def RecordedSince (cs : List Change) (e : Entry) : Prop :=
  ∃ before c behind, cs = before ++ c :: behind ∧ e ∈ c.recorded ∧ ∀ d ∈ behind, ¬d.Removes e

theorem recordedSince_cons {c : Change} {cs : List Change} {e : Entry} :
    RecordedSince (c :: cs) e ↔
      (e ∈ c.recorded ∧ ∀ d ∈ cs, ¬d.Removes e) ∨ RecordedSince cs e := by
  constructor
  · rintro ⟨before, d, behind, hcs, hrecorded, hkept⟩
    rcases List.cons_eq_append_iff.mp hcs with ⟨rfl, hcs⟩ | ⟨before, rfl, rfl⟩
    · obtain ⟨rfl, rfl⟩ := List.cons.inj hcs
      exact .inl ⟨hrecorded, hkept⟩
    · exact .inr ⟨before, d, behind, rfl, hrecorded, hkept⟩
  · rintro (⟨hrecorded, hkept⟩ | ⟨before, d, behind, rfl, hrecorded, hkept⟩)
    · exact ⟨[], c, cs, rfl, hrecorded, hkept⟩
    · exact ⟨c :: before, d, behind, rfl, hrecorded, hkept⟩

/-- A change keeps what it does not remove and adds what it records. -/
theorem mem_change {log : Log} {c : Change} {e : Entry} :
    e ∈ (log.change c).entries ↔ (e ∈ log.entries ∧ ¬c.Removes e) ∨ e ∈ c.recorded := by
  cases c with
  | record e' =>
      change e ∈ (log.insert e').entries ↔ _
      simp [mem_insert_iff, Change.Removes, Change.recorded]
  | extend es => simp [change, mem_extend, Change.Removes, Change.recorded]
  | collect es => simp [change, mem_ofList, Change.Removes, Change.recorded]
  | purgeTempOnce => simp [change, mem_purgeTempOnce, Change.Removes, Change.recorded]
  | clear => simp [change, empty, Change.Removes, Change.recorded]

theorem nodup_change {log : Log} (hlog : log.entries.Nodup) (c : Change) :
    (log.change c).entries.Nodup := by
  cases c with
  | record e => exact nodup_extend hlog [e]
  | extend es => exact nodup_extend hlog es
  | collect es => exact nodup_extend .nil es
  | purgeTempOnce => exact hlog.filter _
  | clear => exact .nil

/-- After some changes a log holds what they recorded and did not remove since, and what it held
before them and none of them removed. -/
theorem mem_after {log : Log} {cs : List Change} {e : Entry} :
    e ∈ (log.after cs).entries ↔
      (e ∈ log.entries ∧ ∀ c ∈ cs, ¬c.Removes e) ∨ RecordedSince cs e := by
  induction cs generalizing log with
  | nil => simp [after, RecordedSince]
  | cons c cs ih =>
      change e ∈ ((log.change c).after cs).entries ↔ _
      rw [ih, mem_change, recordedSince_cons, List.forall_mem_cons, ← or_assoc, or_and_right,
        and_assoc]

theorem nodup_after {log : Log} (hlog : log.entries.Nodup) (cs : List Change) :
    (log.after cs).entries.Nodup := by
  induction cs generalizing log with
  | nil => exact hlog
  | cons c cs ih => exact ih (nodup_change hlog c)

theorem mem_after_empty {cs : List Change} {e : Entry} :
    e ∈ (empty.after cs).entries ↔ RecordedSince cs e :=
  mem_after.trans (or_iff_right fun h => List.not_mem_nil h.1)

theorem record_fst_eq_true_iff {log : Log} {e : Entry} :
    (log.record e).1 = true ↔ e ∉ log.entries := by
  rw [record]
  split <;> simp [*]

/-- A log is an ordered set of facts. The log of a list holds its elements in the order in which
they first occur, and is extended and purged as the list is. After any changes, no entry is in the
log twice, recording an entry that is new puts it behind the others and any other does nothing, and
the log bars the sites of the entries that were recorded and not removed since. -/
theorem is_ordered_set :
    (∀ xs ys : List Entry,
      FirstOccurrences xs (ofList xs).entries ∧
      (ofList xs).extend ys = ofList (xs ++ ys) ∧
      ((ofList xs).extend ys).extend ys = ofList (xs ++ ys) ∧
      ofList (xs ++ ys ++ ys) = ofList (xs ++ ys) ∧
      (ofList xs).purgeTempOnce = ofList (xs.filter (·.scope ≠ .tempOnce))) ∧
    ∀ cs : List Change,
      (empty.after cs).entries.Nodup ∧
      (∀ e, ((empty.after cs).record e).1 = true ↔ e ∉ (empty.after cs).entries) ∧
      (∀ e, ((empty.after cs).record e).2.entries = (empty.after cs).entries ++
        if e ∈ (empty.after cs).entries then [] else [e]) ∧
      ∀ scope site, (empty.after cs).contains scope site = true ↔
        ∃ e, RecordedSince cs e ∧ e.scope = scope ∧ e.site.dialog = site.dialog ∧
          e.site.line = site.line ∧ (scope = .onceEver ∨ e.site.actor = site.actor) := by
  refine ⟨fun xs ys => ?_, fun cs => ⟨nodup_after .nil cs, ?_, ?_, ?_⟩⟩
  · have htwice : ((ofList xs).extend ys).extend ys = ofList (xs ++ ys) := by
      rw [extend_extend_self, ofList_extend]
    refine ⟨firstOccurrences_ofList xs, ofList_extend xs ys, htwice, ?_, ?_⟩
    · rw [← ofList_extend (xs ++ ys), ← ofList_extend xs, extend_extend_self]
    · exact purgeTempOnce_extend empty xs
  · exact fun e => record_fst_eq_true_iff
  · intro e
    change ((empty.after cs).insert e).entries = _
    split
    · rw [insert_of_mem ‹_›, List.append_nil]
    · exact entries_insert_of_not_mem ‹_›
  · intro scope site
    rw [contains_iff]
    simp only [mem_after_empty, Entry.matches, Bool.and_eq_true, Bool.or_eq_true,
      decide_eq_true_eq, and_assoc]

end Log

end DialogScript
