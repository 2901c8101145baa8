import DialogScript.Proofs.Log
import DialogScript.Proofs.Player.Reference
import DialogScript.Proofs.Player.Transcript

/-!
# Statements that are shown once

The scopes `showonce` and `temponce` last until a statement is shown, but their entries go into the
log as soon as the conditions of the statement have been asked. Whether it is shown is decided
later: a statement that is no choice is left where it is behind choices on offer, and a choice may
have a number without a place, a place that is taken, or come when enough choices are on offer. So
a visit can use up an accepted statement without showing it. This file tells exactly when.

## Main definitions

* `Player.Takes`: the player runs an accepted statement, or has a place for it
* `Scene.Shows`, `Scene.Spends`: a statement is shown, and a scope that lasts until then is used up

## Main results

* `Scene.of_visit_accepted`: what a visit to an accepted statement does
* `Scene.shows_iff_of_visit`: it shows the statement exactly if the player takes it
* `Scene.wasted_iff_of_visit`: when it uses up the statement without showing it
-/

namespace DialogScript

variable {σ ω : Type}

/-- The player has use for an accepted statement. It runs a statement while no choices are on offer,
and takes a choice whose number has a place that is free while the limit is not reached. -/
def Player.Takes (p : Player ω) (st : Statement) : Prop :=
  match st.choice? with
  | none => p.hasChoices = false
  | some (number, _, _) => p.offered.length < p.limit ∧
      ∃ k : Fin maxChoices, number.toInt = (k : Int) + 1 ∧ p.slots.get k = none

namespace Scene

variable {h : Host σ ω} {s s₁ : Scene σ ω} {st : Statement} {o : Outcome σ ω}

/-- From one scene to the next the statement at the cursor is shown: it is run, or it comes into a
place that was free. -/
def Shows (st : Statement) (s s' : Scene σ ω) : Prop :=
  match st.choice? with
  | none => .used s.player.actor s.player.dialog st ∈ s'.events.drop s.events.length
  | some _ => ∃ k : Fin maxChoices,
      s.player.slots.get k = none ∧ s'.player.slots.get k = some s.player.cursor

/-- From one scene to the next an entry comes into the log of a scope of the statement that lasts
until the statement is shown. -/
def Spends (st : Statement) (s s' : Scene σ ω) : Prop :=
  ∃ e ∈ st.entries Scope.onShow s.player.actor s.player.dialog,
    e ∉ s.player.log.entries ∧ e ∈ s'.player.log.entries

/-- What a visit to an accepted statement does: it offers a choice, leaves the statement behind
choices on offer, or runs it. -/
theorem of_visit_accepted (hhere : s.player.here? = some st) (hjudge : s.judge h st = (true, s₁))
    (hvisit : Visit h s o) :
    (∃ number text target, st.choice? = some (number, text, target) ∧
      o = .on (s₁.offer number).step) ∨
    (st.choice? = none ∧ s₁.player.hasChoices = true ∧ o = .halt (s₁.inPhase .choosing)) ∨
    st.choice? = none ∧ s₁.player.hasChoices = false ∧ ∃ flow s₂, s₁.run h st = (flow, s₂) ∧
      o.scene.events = s₂.events ∧ o.scene.player.log = s₂.player.log := by
  cases hvisit with
  | nowhere hlabel => simp [Player.here?, Player.statement?, hlabel] at hhere
  | rejected hhere' hjudge' =>
      obtain rfl := Option.some.inj (hhere.symm.trans hhere')
      cases (Prod.mk.inj (hjudge.symm.trans hjudge')).1
  | offered hhere' hjudge' hchoice =>
      obtain rfl := Option.some.inj (hhere.symm.trans hhere')
      obtain rfl := (Prod.mk.inj (hjudge.symm.trans hjudge')).2
      exact .inl ⟨_, _, _, hchoice, rfl⟩
  | held hhere' hjudge' hchoice hopen =>
      obtain rfl := Option.some.inj (hhere.symm.trans hhere')
      obtain rfl := (Prod.mk.inj (hjudge.symm.trans hjudge')).2
      exact .inr (.inl ⟨hchoice, hopen, rfl⟩)
  | ran hhere' hjudge' hchoice hopen hrun | awaited hhere' hjudge' hchoice hopen hrun
  | jumped hhere' hjudge' hchoice hopen hrun =>
      obtain rfl := Option.some.inj (hhere.symm.trans hhere')
      obtain rfl := (Prod.mk.inj (hjudge.symm.trans hjudge')).2
      exact .inr (.inr ⟨hchoice, hopen, _, _, hrun, rfl, rfl⟩)
  | choosing hend | through hend | ended hend =>
      obtain ⟨hlabel, l, hl, hcursor⟩ := hend
      rw [Player.here?, Player.statement?_of_label? ((Player.label?_of_label hlabel).trans hl),
        List.getElem?_eq_none hcursor] at hhere
      cases hhere

/-- Offering a choice puts the cursor into a place that was free exactly if the player takes it. -/
theorem shows_offer_iff {number : Int32} {text target : String}
    (hchoice : st.choice? = some (number, text, target)) (s : Scene σ ω) :
    Shows st s (s.offer number).step ↔ s.player.Takes st := by
  simp only [Shows, Player.Takes, hchoice]
  rcases offer_cases s number with ⟨⟨r, hoffer⟩, hfull⟩ | ⟨k, hk, hfree, hlimit, hoffer⟩
  · refine iff_of_false ?_ ?_
    · rintro ⟨k, hfree, hset⟩
      rw [hoffer, player_step, player_remark, hfree] at hset
      cases hset
    · rintro ⟨hlimit, k, hk, hfree⟩
      exact Nat.not_le_of_lt hlimit (hfull k hk hfree)
  · refine iff_of_true ⟨k, hfree, ?_⟩ ⟨hlimit, k, hk, hfree⟩
    rw [hoffer, player_step]
    exact Player.get_set_self _ k _

/-- A visit to an accepted statement shows it exactly if the player takes it. -/
theorem shows_iff_of_visit (hhere : s.player.here? = some st) (hjudge : s.judge h st = (true, s₁))
    (hvisit : Visit h s o) : Shows st s o.scene ↔ s.player.Takes st := by
  have hplayer := player_of_judge hjudge
  have hslots : s₁.player.slots = s.player.slots := by rw [hplayer]
  obtain ⟨more, hplain, hjudged⟩ := events_judge hjudge
  rcases of_visit_accepted hhere hjudge hvisit with ⟨number, text, target, hchoice, rfl⟩ |
    ⟨hchoice, hopen, rfl⟩ | ⟨hchoice, hopen, flow, s₂, hrun, hevents, -⟩
  · have hoffered := shows_offer_iff hchoice s₁
    simp only [Shows, Player.Takes, hchoice, hplayer] at hoffered ⊢
    exact hoffered
  · simp only [Shows, Player.Takes, hchoice]
    refine iff_of_false (fun hused => ?_) ?_
    · change _ ∈ s₁.events.drop s.events.length at hused
      rw [hjudged, List.append_assoc, List.drop_left, List.mem_append, List.mem_singleton] at hused
      rcases hused with hused | hused
      · cases hplain _ hused
      · cases hused
    · rw [← Player.hasChoices_congr hslots, hopen]
      exact Bool.noConfusion
  · simp only [Shows, Player.Takes, hchoice]
    obtain ⟨more', -, hran⟩ := events_run hrun
    refine iff_of_true ?_ ?_
    · rw [hevents, hran, hjudged, hplayer]
      simp
    · rw [← Player.hasChoices_congr hslots]
      exact hopen

/-- A visit to an accepted statement uses up the scopes that last until it is shown, if they were
not used up before. -/
theorem spends_iff_of_visit (hhere : s.player.here? = some st)
    (hjudge : s.judge h st = (true, s₁)) (hvisit : Visit h s o) : Spends st s o.scene ↔
      ∃ e ∈ st.entries Scope.onShow s.player.actor s.player.dialog, e ∉ s.player.log.entries := by
  have hplayer := player_of_judge hjudge
  have hlog {e : Entry} (he : e ∈ s₁.player.log.entries) : e ∈ o.scene.player.log.entries := by
    rcases of_visit_accepted hhere hjudge hvisit with ⟨number, text, target, -, rfl⟩ |
      ⟨-, -, rfl⟩ | ⟨-, -, flow, s₂, hrun, -, hlog⟩
    · obtain ⟨slots, hoffer⟩ := player_offer s₁ number
      change e ∈ (s₁.offer number).step.player.log.entries
      rwa [player_step, hoffer]
    · exact he
    · rw [hlog, player_of_run hrun]
      exact Log.mem_extend.mpr (.inl he)
  constructor
  · rintro ⟨e, he, hfresh, -⟩
    exact ⟨e, he, hfresh⟩
  · rintro ⟨e, he, hfresh⟩
    refine ⟨e, he, hfresh, hlog ?_⟩
    rw [hplayer]
    exact Log.mem_extend.mpr (.inr he)

/-- A visit uses up an accepted statement without showing it exactly if a scope that lasts until it
is shown was not used up before and the player does not take the statement. -/
theorem wasted_iff_of_visit (hhere : s.player.here? = some st) (hjudge : s.judge h st = (true, s₁))
    (hvisit : Visit h s o) : (Spends st s o.scene ∧ ¬Shows st s o.scene) ↔
      (∃ e ∈ st.entries Scope.onShow s.player.actor s.player.dialog, e ∉ s.player.log.entries) ∧
        ¬s.player.Takes st := by
  rw [spends_iff_of_visit hhere hjudge hvisit, shows_iff_of_visit hhere hjudge hvisit]

/-- Behind a choice on offer, a text is used up and not said. -/
theorem wasted_of_held :
    let st : Statement := ⟨.say "b" "y", [⟨.scope .showOnce, 3⟩]⟩
    let script : Script := ⟨[⟨"s", [⟨.choice 1 "x" "s", []⟩, st]⟩]⟩
    let slots := Slots.empty.set 0 (some 0)
    let p : Player Unit := {
      loader := fun _ => .ok "", script, actor := "a", dialog := "d", label := some 0, cursor := 1,
      slots }
    let s : Scene Unit Unit := { player := p, host := () }
    s.player.here? = some st ∧ ∃ s₁ o, s.judge Host.instant st = (true, s₁) ∧
      Visit Host.instant s o ∧ Spends st s o.scene ∧ ¬Shows st s o.scene := by
  intro st script slots p s
  have hvisit : Visit Host.instant s (.halt ((s.judge Host.instant st).2.inPhase .choosing)) :=
    .held rfl rfl rfl (by decide)
  refine ⟨rfl, _, _, rfl, hvisit, (wasted_iff_of_visit rfl rfl hvisit).mpr ⟨?_, ?_⟩⟩
  · exact ⟨⟨.showOnce, ⟨"a", "d", 3⟩⟩, by decide, by decide⟩
  · change ¬s.player.hasChoices = false
    decide

/-- A text behind a choice is accepted and used up in the activation that a start makes, which
neither says it nor offers it. It is not said either when the choice is picked and leads back to
it. -/
theorem not_shown_once :
    let st : Statement := ⟨.say "b" "y", [⟨.scope .showOnce, 3⟩]⟩
    let source := ":s\n1 \"x\" -> s [once]\nb: \"y\" [showonce]\n"
    let fresh : Scene Unit Unit := fresh (fun _ => .ok "") Config.silent {} ()
    let s := fresh.apply Host.instant (.startSource "a" "d" "s" source)
    let s' := s.apply Host.instant (.choose 1)
    .judged "a" "d" st true ∈ s.events ∧ ⟨.showOnce, ⟨"a", "d", 3⟩⟩ ∈ s.player.log.entries ∧
      .used "a" "d" st ∉ s.events ∧ some st ∉ s.player.choices ∧
        .used "a" "d" st ∉ s'.events ∧ s'.player.phase = .idle := by
  decide +kernel

end Scene

end DialogScript
