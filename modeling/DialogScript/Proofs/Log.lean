import DialogScript.Player.Run

/-!
# The condition log as a set of facts

What a log holds after entries have been added or forgotten, and which sites its entries bar.

## Main results

* `Log.mem_extend`: a log with further entries holds the old entries and the new ones
* `Log.entries_extend`: the new ones come behind the old ones, each once
* `Log.contains_extend`: it bars what the log barred and what the new entries match
* `Log.contains_purgeTempOnce`: forgetting between sessions concerns one scope only
* `Statement.contains_extend_entries`: what the entries of a statement bar
-/

namespace DialogScript

namespace Log

theorem mem_insert_iff {log : Log} {e e' : Entry} :
    e' ∈ (log.insert e).entries ↔ e' ∈ log.entries ∨ e' = e := by
  by_cases h : e ∈ log.entries
  · rw [insert_of_mem h]
    constructor
    · exact .inl
    · rintro (hold | rfl)
      · exact hold
      · exact h
  · rw [entries_insert_of_not_mem h, List.mem_append, List.mem_singleton]

/-- A log with further entries holds the old entries and the new ones. -/
theorem mem_extend {log : Log} {es : List Entry} {e : Entry} :
    e ∈ (log.extend es).entries ↔ e ∈ log.entries ∨ e ∈ es := by
  induction es generalizing log with
  | nil => simp [extend]
  | cons e' es ih =>
      change e ∈ ((log.insert e').extend es).entries ↔ _
      rw [ih, mem_insert_iff, List.mem_cons, or_assoc]

theorem extend_extend (log : Log) (es es' : List Entry) :
    (log.extend es).extend es' = log.extend (es ++ es') := List.foldl_append.symm

/-- What comes into a log comes behind the other entries, each entry once. -/
theorem entries_extend (log : Log) (es : List Entry) :
    ∃ new, (log.extend es).entries = log.entries ++ new ∧ new.Nodup ∧
      ∀ e ∈ new, e ∈ es ∧ e ∉ log.entries := by
  induction es generalizing log with
  | nil => exact ⟨[], by simp [extend], List.nodup_nil, by simp⟩
  | cons e es ih =>
      obtain ⟨new, hentries, hnodup, hnew⟩ := ih (log.insert e)
      change ∃ new, ((log.insert e).extend es).entries = _ ∧ _
      by_cases hmem : e ∈ log.entries
      · rw [insert_of_mem hmem] at hentries hnew ⊢
        exact ⟨new, hentries, hnodup, fun e' he' =>
          ⟨List.mem_cons_of_mem e (hnew e' he').1, (hnew e' he').2⟩⟩
      · rw [entries_insert_of_not_mem hmem] at hentries hnew
        refine ⟨e :: new, by rw [hentries, List.append_assoc, List.singleton_append], ?_, ?_⟩
        · exact List.nodup_cons.mpr ⟨fun he => (hnew e he).2 (by simp), hnodup⟩
        · refine List.forall_mem_cons.mpr ⟨⟨List.mem_cons_self, hmem⟩, fun e' he' => ?_⟩
          exact ⟨List.mem_cons_of_mem e (hnew e' he').1,
            fun hold => (hnew e' he').2 (List.mem_append_left _ hold)⟩

theorem contains_iff {log : Log} {scope : Scope} {site : Site} :
    log.contains scope site = true ↔ ∃ e ∈ log.entries, e.matches scope site = true :=
  List.any_eq_true

/-- A log with further entries bars what the log barred and what the new entries match. -/
theorem contains_extend {log : Log} {es : List Entry} {scope : Scope} {site : Site} :
    (log.extend es).contains scope site = true ↔
      log.contains scope site = true ∨ ∃ e ∈ es, e.matches scope site = true := by
  simp only [contains_iff, mem_extend, or_and_right, exists_or]

theorem contains_insert {log : Log} {e : Entry} {scope : Scope} {site : Site} :
    (log.insert e).contains scope site = (log.contains scope site || e.matches scope site) := by
  have hextend : log.insert e = log.extend [e] := rfl
  rw [Bool.eq_iff_iff, hextend, contains_extend, Bool.or_eq_true]
  simp

theorem contains_extend_of_contains {log : Log} {scope : Scope} {site : Site}
    (h : log.contains scope site = true) (es : List Entry) :
    (log.extend es).contains scope site = true :=
  contains_extend.mpr (.inl h)

/-- Forgetting between sessions concerns one scope only. -/
theorem contains_purgeTempOnce {log : Log} {scope : Scope} {site : Site} (h : scope ≠ .tempOnce) :
    log.purgeTempOnce.contains scope site = log.contains scope site := by
  rw [Bool.eq_iff_iff, contains_iff, contains_iff]
  constructor
  · rintro ⟨e, he, hmatches⟩
    exact ⟨e, (List.mem_filter.mp he).1, hmatches⟩
  · rintro ⟨e, he, hmatches⟩
    have hscope : e.scope = scope := by
      simp only [Entry.matches, Bool.and_eq_true, decide_eq_true_eq] at hmatches
      exact hmatches.1.1.1
    exact ⟨e, List.mem_filter.mpr ⟨he, by simpa [hscope] using h⟩, hmatches⟩

end Log

namespace Statement

/-- The statement has a condition of the scope on the line. -/
def carries (st : Statement) (scope : Scope) (line : UInt32) : Bool :=
  decide (⟨.scope scope, line⟩ ∈ st.conditions)

/-- In a session of the actor and the dialog, the statement has a condition of the scope whose entry
bars the scope at the site. -/
def marks (st : Statement) (scope : Scope) (actor dialog : String) (site : Site) : Bool :=
  st.carries scope site.line && dialog = site.dialog && (scope = .onceEver || actor = site.actor)

theorem mem_entries {st : Statement} {scopes : Scope → Bool} {actor dialog : String} {e : Entry} :
    e ∈ st.entries scopes actor dialog ↔
      scopes e.scope = true ∧ e.site.actor = actor ∧ e.site.dialog = dialog ∧
        st.carries e.scope e.site.line = true := by
  simp only [entries, List.mem_filterMap, carries, decide_eq_true_eq]
  constructor
  · rintro ⟨⟨gate, line⟩, hmem, hentry⟩
    cases gate with
    | code text => simp at hentry
    | scope scope =>
        dsimp only at hentry
        split at hentry
        · obtain rfl := Option.some.inj hentry
          exact ⟨‹_›, rfl, rfl, hmem⟩
        · simp at hentry
  · rintro ⟨hscope, rfl, rfl, hmem⟩
    exact ⟨_, hmem, by simp [hscope]⟩

/-- The entries of a statement bar, of the scopes that are recorded, what the statement marks. -/
theorem contains_extend_entries {st : Statement} {scopes : Scope → Bool} {actor dialog : String}
    {log : Log} {scope : Scope} {site : Site} :
    (log.extend (st.entries scopes actor dialog)).contains scope site = true ↔
      log.contains scope site = true ∨
        scopes scope = true ∧ st.marks scope actor dialog site = true := by
  rw [Log.contains_extend]
  refine or_congr_right ?_
  simp only [mem_entries, Entry.matches, marks, Bool.and_eq_true, Bool.or_eq_true,
    decide_eq_true_eq]
  constructor
  · rintro ⟨⟨_, _, _, _⟩, ⟨hscopes, rfl, rfl, hcarries⟩, ⟨⟨rfl, rfl⟩, rfl⟩, hactor⟩
    exact ⟨hscopes, ⟨hcarries, rfl⟩, hactor⟩
  · rintro ⟨hscopes, ⟨hcarries, rfl⟩, hactor⟩
    exact ⟨⟨scope, actor, site.dialog, site.line⟩, ⟨hscopes, rfl, rfl, hcarries⟩,
      ⟨⟨rfl, rfl⟩, rfl⟩, hactor⟩

/-- Entries of other scopes do not bar a scope. -/
theorem contains_extend_entries_of_not {st : Statement} {scopes : Scope → Bool}
    {actor dialog : String} {log : Log} {scope : Scope} {site : Site} (h : scopes scope = false) :
    (log.extend (st.entries scopes actor dialog)).contains scope site =
      log.contains scope site := by
  rw [Bool.eq_iff_iff, contains_extend_entries]
  simp [h]

end Statement

end DialogScript
