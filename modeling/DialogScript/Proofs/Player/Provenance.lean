import DialogScript.Proofs.Log
import DialogScript.Proofs.Player.Lead
import DialogScript.Proofs.Player.Transcript

/-!
# Where the entries of the log come from

An operation leaves the entries of the log in their order and adds others behind them, each once; a
start of a dialog forgets the entries of `temponce` first. What is added stems from the session in
which the player then is: it names the actor and the dialog of the session, and the line of a
condition in the script, whose statement has been judged during the operation if the scope of the
condition lasts until the statement is shown, and used if it lasts until then.

## Main definitions

* `Script.Has`: a statement of the script
* `Entry.StemsFrom`: an entry is due to some events in the session of a player
* `Scene.Adds`: one scene after another in a session, with only such entries added to the log
* `Scene.keptEntries`: the entries that an operation leaves in the log

## Main results

* `Scene.adds_of_visit`, `Scene.adds_advance`: what a visit and an activation add
* `Scene.entries_apply`: what an operation adds
-/

namespace DialogScript

variable {σ ω : Type}

/-- The statement stands in a label of the script. -/
def Script.Has (script : Script) (st : Statement) : Prop :=
  ∃ l ∈ script.labels, st ∈ l.statements

theorem Player.has_of_statement? {p : Player ω} {i : Nat} {st : Statement}
    (hst : p.statement? i = some st) : p.script.Has st := by
  obtain ⟨l, hl, hst⟩ := Option.bind_eq_some_iff.mp hst
  obtain ⟨j, -, hl⟩ := Option.bind_eq_some_iff.mp hl
  exact ⟨l, List.mem_of_getElem? hl, List.mem_of_getElem? hst⟩

theorem Player.has_of_picked? {p : Player ω} {choice : Nat} {st : Statement}
    (hst : p.picked? choice = some st) : p.script.Has st := by
  rw [picked?] at hst
  split at hst
  · cases hst
  · obtain ⟨i, -, hst⟩ := Option.bind_eq_some_iff.mp hst
    exact has_of_statement? hst

/-- The entry names the session of the player and a condition of a statement of its script. Among
the events, the statement is judged if the scope is used up when it is shown, and else used. -/
def Entry.StemsFrom (e : Entry) (p : Player ω) (events : List (Event ω)) : Prop :=
  e.site.actor = p.actor ∧ e.site.dialog = p.dialog ∧
    ∃ st, p.script.Has st ∧ st.carries e.scope e.site.line = true ∧
      if e.scope.onShow then ∃ accepted, .judged p.actor p.dialog st accepted ∈ events
      else .used p.actor p.dialog st ∈ events

namespace Scene

variable {h : Host σ ω}

/-- One scene comes after another in a session, and all that has been added to the log stems from
what has happened. -/
structure Adds (s s' : Scene σ ω) : Prop where
  actor : s'.player.actor = s.player.actor
  dialog : s'.player.dialog = s.player.dialog
  script : s'.player.script = s.player.script
  entries : ∃ more es, s'.events = s.events ++ more ∧ s'.player.log = s.player.log.extend es ∧
    ∀ e ∈ es, e.StemsFrom s.player more

theorem stemsFrom_congr {e : Entry} {p q : Player ω} (hactor : q.actor = p.actor)
    (hdialog : q.dialog = p.dialog) (hscript : q.script = p.script) {events : List (Event ω)} :
    e.StemsFrom q events ↔ e.StemsFrom p events := by
  rw [Entry.StemsFrom, Entry.StemsFrom, hactor, hdialog, hscript]

theorem stemsFrom_mono {e : Entry} {p : Player ω} {events events' : List (Event ω)}
    (hsub : events ⊆ events') (he : e.StemsFrom p events) : e.StemsFrom p events' := by
  obtain ⟨hactor, hdialog, st, hst, hcarries, hevent⟩ := he
  refine ⟨hactor, hdialog, st, hst, hcarries, ?_⟩
  split
  · rename_i hshow
    rw [if_pos hshow] at hevent
    obtain ⟨accepted, hjudged⟩ := hevent
    exact ⟨accepted, hsub hjudged⟩
  · rename_i hshow
    rw [if_neg hshow] at hevent
    exact hsub hevent

namespace Adds

/-- What only appends calls and remarks adds nothing. -/
theorem of_quiet {s s' : Scene σ ω} (hquiet : Quiet s s') (hlog : s'.player.log = s.player.log)
    (hactor : s'.player.actor = s.player.actor) (hdialog : s'.player.dialog = s.player.dialog)
    (hscript : s'.player.script = s.player.script) : Adds s s' := by
  obtain ⟨more, hevents, -⟩ := hquiet
  exact ⟨hactor, hdialog, hscript, more, [], hevents, hlog, by simp⟩

theorem refl (s : Scene σ ω) : Adds s s := of_quiet (.refl s) rfl rfl rfl rfl

theorem trans {s s₁ s' : Scene σ ω} (h₁ : Adds s s₁) (h₂ : Adds s₁ s') : Adds s s' := by
  obtain ⟨hactor, hdialog, hscript, more, es, hevents, hlog, hes⟩ := h₁
  obtain ⟨hactor', hdialog', hscript', more', es', hevents', hlog', hes'⟩ := h₂
  refine ⟨hactor'.trans hactor, hdialog'.trans hdialog, hscript'.trans hscript, more ++ more',
    es ++ es', ?_, ?_, fun e he => ?_⟩
  · rw [hevents', hevents, List.append_assoc]
  · rw [hlog', hlog, Log.extend_extend]
  · rcases List.mem_append.mp he with he | he
    · exact stemsFrom_mono (List.subset_append_left _ _) (hes e he)
    · exact stemsFrom_mono (List.subset_append_right _ _)
        ((stemsFrom_congr hactor hdialog hscript).mp (hes' e he))

end Adds

/-! ### Visits -/

/-- Judging a statement adds what is used up when the statement is shown. -/
theorem adds_judge {s s₁ : Scene σ ω} {st : Statement} {accepted : Bool}
    (hst : s.player.script.Has st) (hjudge : s.judge h st = (accepted, s₁)) : Adds s s₁ := by
  have hplayer := player_of_judge hjudge
  obtain ⟨more, -, hevents⟩ := events_judge hjudge
  rw [List.append_assoc] at hevents
  refine ⟨by rw [hplayer], by rw [hplayer], by rw [hplayer], _, _, hevents, by rw [hplayer],
    fun e he => ?_⟩
  obtain ⟨hshow, hactor, hdialog, hcarries⟩ := Statement.mem_entries.mp he
  refine ⟨hactor, hdialog, st, hst, hcarries, ?_⟩
  rw [if_pos hshow]
  exact ⟨accepted, List.mem_append_right more List.mem_cons_self⟩

/-- What counts as using a statement adds what is used up then. -/
theorem adds_of_used {s s' : Scene σ ω} {st : Statement} {more : List (Event ω)}
    (hst : s.player.script.Has st)
    (hevents : s'.events = s.events ++ more ++ [.used s.player.actor s.player.dialog st])
    (hlog : s'.player.log =
      s.player.log.extend (st.entries (!·.onShow) s.player.actor s.player.dialog))
    (hactor : s'.player.actor = s.player.actor) (hdialog : s'.player.dialog = s.player.dialog)
    (hscript : s'.player.script = s.player.script) : Adds s s' := by
  rw [List.append_assoc] at hevents
  refine ⟨hactor, hdialog, hscript, _, _, hevents, hlog, fun e he => ?_⟩
  obtain ⟨hshow, hactor, hdialog, hcarries⟩ := Statement.mem_entries.mp he
  refine ⟨hactor, hdialog, st, hst, hcarries, ?_⟩
  rw [if_neg (by simpa using hshow)]
  exact List.mem_append_right more List.mem_cons_self

theorem adds_run {s s₁ : Scene σ ω} {st : Statement} {flow : Flow ω}
    (hst : s.player.script.Has st) (hrun : s.run h st = (flow, s₁)) : Adds s s₁ := by
  have hplayer := player_of_run hrun
  obtain ⟨more, -, hevents⟩ := events_run hrun
  refine adds_of_used hst hevents ?_ ?_ ?_ ?_ <;> rw [hplayer] <;> simp

theorem adds_use {s : Scene σ ω} {st : Statement} (hst : s.player.script.Has st) :
    Adds s (s.use st) := by
  have hevents : (s.use st).events =
      s.events ++ [] ++ [.used s.player.actor s.player.dialog st] := by
    rw [List.append_nil]
    exact events_use s st
  exact adds_of_used hst hevents rfl rfl rfl rfl

theorem adds_remark (s : Scene σ ω) (r : Remark) : Adds s (s.remark r) :=
  .of_quiet (.remark s r) rfl rfl rfl rfl

theorem adds_offer (s : Scene σ ω) (number : Int32) : Adds s (s.offer number) := by
  obtain ⟨slots, hplayer⟩ := player_offer s number
  refine .of_quiet (asides_offer s number).quiet ?_ ?_ ?_ ?_ <;> rw [hplayer]

theorem adds_finish (s : Scene σ ω) : Adds s s.finish := by
  refine .of_quiet (quiet_finish s) ?_ ?_ ?_ ?_ <;> rw [player_finish]

/-- Putting the player elsewhere in its session adds nothing. -/
theorem adds_of_moved {s s' : Scene σ ω} (hevents : s'.events = s.events)
    (hlog : s'.player.log = s.player.log) (hactor : s'.player.actor = s.player.actor)
    (hdialog : s'.player.dialog = s.player.dialog)
    (hscript : s'.player.script = s.player.script) : Adds s s' :=
  .of_quiet (.of_events_eq hevents) hlog hactor hdialog hscript

/-- A visit adds only what stems from it. -/
theorem adds_of_visit {s : Scene σ ω} {o : Outcome σ ω} (hvisit : Visit h s o) :
    Adds s o.scene := by
  have hrun {st : Statement} {s₁ s₂ : Scene σ ω} {accepted : Bool} {flow : Flow ω}
      (hhere : s.player.here? = some st) (hjudge : s.judge h st = (accepted, s₁))
      (hrun : s₁.run h st = (flow, s₂)) : Adds s s₂ := by
    have hjudged := adds_judge (Player.has_of_statement? hhere) hjudge
    refine hjudged.trans (adds_run ?_ hrun)
    rw [hjudged.script]
    exact Player.has_of_statement? hhere
  cases hvisit with
  | nowhere | ended => exact adds_finish s
  | choosing | through => exact adds_of_moved rfl rfl rfl rfl rfl
  | rejected hhere hjudge | held hhere hjudge =>
      have hjudged := adds_judge (Player.has_of_statement? hhere) hjudge
      exact hjudged.trans (adds_of_moved rfl rfl rfl rfl rfl)
  | offered hhere hjudge =>
      have hjudged := adds_judge (Player.has_of_statement? hhere) hjudge
      exact (hjudged.trans (adds_offer _ _)).trans (adds_of_moved rfl rfl rfl rfl rfl)
  | ran hhere hjudge _ _ hran | awaited hhere hjudge _ _ hran =>
      exact (hrun hhere hjudge hran).trans (adds_of_moved rfl rfl rfl rfl rfl)
  | jumped hhere hjudge _ _ hran => exact hrun hhere hjudge hran

/-- An activation adds only what stems from it. -/
theorem adds_advance (h : Host σ ω) (s : Scene σ ω) : Adds s (s.advance h) := by
  have hentered (s : Scene σ ω) (name : String) (i : Nat) :
      Adds s (((s.remark (.entered name)).enterAt i).inPhase .running) :=
    (adds_remark s (.entered name)).trans (adds_of_moved rfl rfl rfl rfl rfl)
  refine Activation.induct (P := Adds s) (Q := Adds s)
    (fun hs hvisit => hs.trans (adds_of_visit hvisit))
    (fun hs hvisit => hs.trans (adds_of_visit hvisit)) ?_ ?_ ?_ (activation_advance s)
    (adds_of_moved rfl rfl rfl rfl rfl)
  · intro s₁ s₂ name hs hvisit _
    exact ((hs.trans (adds_of_visit hvisit)).trans (adds_remark _ _)).trans (adds_finish _)
  · intro s₁ s₂ name i hs hvisit _
    exact (hs.trans (adds_of_visit hvisit)).trans (hentered s₂ name i)
  · intro s₁ s₂ name i hs hvisit _
    exact ((hs.trans (adds_of_visit hvisit)).trans (hentered s₂ name i)).trans (adds_remark _ _)

/-! ### Operations -/

theorem adds_proceed {s : Scene σ ω} {lead : Bool × Scene σ ω} (hlead : Adds s lead.2) :
    Adds s (proceed h lead) := by
  rcases lead with ⟨_ | _, s'⟩
  · exact hlead
  · exact hlead.trans (adds_advance h s')

theorem adds_enter (s : Scene σ ω) (name : String) : Adds s (s.enter name).2 := by
  rw [enter]
  split
  · exact (adds_remark s _).trans (adds_of_moved rfl rfl rfl rfl rfl)
  · exact (adds_remark s _).trans (adds_finish _)

theorem adds_goOn (s : Scene σ ω) : Adds s s.goOn.2 := by
  rw [goOn]
  split
  · have hmoved : Adds s { s with player := { s.player with destination := "" } } :=
      adds_of_moved rfl rfl rfl rfl rfl
    exact hmoved.trans (adds_enter _ _)
  · exact adds_of_moved rfl rfl rfl rfl rfl

theorem adds_pollWait {s s' : Scene σ ω} {ready : Bool} (hpoll : s.pollWait h = (ready, s')) :
    Adds s s' := by
  have hplayer := player_pollWait hpoll
  refine .of_quiet (quiet_pollWait hpoll) ?_ ?_ ?_ ?_ <;> rw [hplayer] <;> cases ready <;> rfl

theorem adds_awaken (h : Host σ ω) (s : Scene σ ω) : Adds s (s.awaken h).2 := by
  by_cases hs : s.Waits
  · rw [awaken_of_waits h hs, resume]
    rcases hpoll : s.pollWait h with ⟨_ | _, s'⟩
    · exact adds_pollWait hpoll
    · exact (adds_pollWait hpoll).trans (adds_goOn s')
  · obtain ⟨goes, hlead⟩ := awaken_of_not_waits h hs
    rw [hlead]
    exact .refl s

/-- Picking a choice adds what is used up when it is used. -/
theorem adds_pick (h : Host σ ω) (s : Scene σ ω) (choice : Nat) : Adds s (s.pick h choice).2 := by
  rw [pick]
  split
  · exact adds_remark s _
  · split
    · exact adds_remark s _
    · rename_i st hpicked
      have hused := adds_use (Player.has_of_picked? hpicked)
      split
      · exact .refl s
      · split
        · exact hused.trans (.of_quiet (quiet_echo _ _ _) rfl rfl rfl rfl)
        · exact hused.trans (adds_enter _ _)

/-- Starting a dialog from its source forgets the entries of `temponce`, then adds what stems from
the new session. If there is an error in the source, it adds nothing. -/
theorem exists_adds_startSource (h : Host σ ω) (s : Scene σ ω)
    (actor dialog label source : String) :
    ∃ s₀, s₀.player.log = s.player.log.purgeTempOnce ∧ Quiet s s₀ ∧
      Adds s₀ (s.startSource h actor dialog label source).2 ∧
        ((s.startSource h actor dialog label source).1 ≠ none →
          (s.startSource h actor dialog label source).2 = s₀) := by
  have hquiet := (quiet_reset s).trans (quiet_reading s source)
  cases hread : Script.read source with
  | error e =>
      rw [startSource_of_error hread]
      refine ⟨s.reading source, ?_, hquiet, .refl _, fun _ => rfl⟩
      rw [player_reading, Player.dismissed]
  | ok script =>
      have hopened := hquiet.trans (quiet_opened s actor dialog label source script)
      have hanswer : (s.startSource h actor dialog label source).1 = none := by
        simp [startSource, hread]
      rw [startSource_of_ok hread, goTo_eq_proceed]
      refine ⟨s.opened actor dialog label source script, ?_, hopened,
        adds_proceed (adds_enter _ label), fun hne => absurd hanswer hne⟩
      rw [player_opened, Player.dismissed]

/-- The entries that an operation leaves in the log: starting a dialog forgets those of `temponce`,
and replacing the log leaves those of the new one. -/
def keptEntries (s : Scene σ ω) : Operation → List Entry
  | .start .. | .startSource .. => s.player.log.entries.filter (·.scope ≠ .tempOnce)
  | .setLog log => log.entries
  | .update | .choose _ | .goTo _ | .finish => s.player.log.entries

/-- An operation first brings the log to the entries that it keeps, then adds what stems from the
session. If it gives an error, it adds nothing. -/
theorem exists_adds_apply (h : Host σ ω) (s : Scene σ ω) (op : Operation) :
    ∃ s₀, s₀.player.log.entries = s.keptEntries op ∧ Quiet s s₀ ∧ Adds s₀ (s.apply h op) ∧
      (s.answer h op ≠ none → s.apply h op = s₀) := by
  have hstays (hanswer : s.answer h op = none) (hkept : s.player.log.entries = s.keptEntries op)
      (hlead : Adds s (s.lead h op).2) : ∃ s₀, s₀.player.log.entries = s.keptEntries op ∧
        Quiet s s₀ ∧ Adds s₀ (s.apply h op) ∧ (s.answer h op ≠ none → s.apply h op = s₀) :=
    ⟨s, hkept, .refl s, apply_eq_proceed s op ▸ adds_proceed hlead, fun hne => absurd hanswer hne⟩
  cases op with
  | start actor dialog label =>
      simp only [apply, answer, start]
      split
      · refine ⟨s.reset, ?_, quiet_reset s, .refl _, fun _ => rfl⟩
        rw [player_reset]
        rfl
      · obtain ⟨s₀, hlog, hquiet, hadds, hanswer⟩ :=
          exists_adds_startSource h s actor dialog label _
        exact ⟨s₀, congrArg Log.entries hlog, hquiet, hadds, hanswer⟩
  | startSource actor dialog label source =>
      obtain ⟨s₀, hlog, hquiet, hadds, hanswer⟩ :=
        exists_adds_startSource h s actor dialog label source
      exact ⟨s₀, congrArg Log.entries hlog, hquiet, hadds, hanswer⟩
  | update => exact hstays rfl rfl (adds_awaken h s)
  | choose choice => exact hstays rfl rfl (adds_pick h s choice)
  | goTo label => exact hstays rfl rfl (adds_enter s label)
  | finish => exact hstays rfl rfl (adds_finish s)
  | setLog log =>
      refine ⟨{ s with player := s.player.withLog log }, rfl, .of_events_eq rfl, .refl _, ?_⟩
      exact fun hne => absurd rfl hne

/-- An operation keeps entries of the log in their order and adds others behind them, each once and
none that it keeps. They stem from what happens during the operation, in the session and the script
in which it leaves the player. If the operation gives an error, there are none. -/
theorem entries_apply (h : Host σ ω) (s : Scene σ ω) (op : Operation) :
    ∃ more new, (s.apply h op).events = s.events ++ more ∧
      (s.apply h op).player.log.entries = s.keptEntries op ++ new ∧ new.Nodup ∧
      (∀ e ∈ new, e ∉ s.keptEntries op ∧ e.StemsFrom (s.apply h op).player more) ∧
      (s.answer h op ≠ none → new = []) := by
  obtain ⟨s₀, hkept, ⟨before, hbefore, -⟩, hadds, hanswer⟩ := exists_adds_apply h s op
  obtain ⟨more, es, hevents, hlog, hes⟩ := hadds.entries
  obtain ⟨new, hentries, hnodup, hnew⟩ := s₀.player.log.entries_extend es
  rw [hkept] at hentries hnew
  refine ⟨before ++ more, new, ?_, hlog ▸ hentries, hnodup, fun e he => ?_, fun hne => ?_⟩
  · rw [hevents, hbefore, List.append_assoc]
  · obtain ⟨hmem, hfresh⟩ := hnew e he
    have hstems := stemsFrom_mono (List.subset_append_right before more) (hes e hmem)
    exact ⟨hfresh, (stemsFrom_congr hadds.actor hadds.dialog hadds.script).mpr hstems⟩
  · rw [← hlog, hanswer hne, hkept] at hentries
    exact List.self_eq_append_right.mp hentries

end Scene

end DialogScript
