import DialogScript.Proofs.Player.Operation
import DialogScript.Proofs.Player.Reference

/-!
# The lead of an operation

An operation runs statements in one activation at most. What it does before is its lead: it forgets
a session and reads a source, polls what the player waits for, picks a choice or comes to a label.
The lead tells whether the activation follows.

## Main definitions

* `Scene.Waits`: the player waits
* `Scene.opening`, `Scene.pick`, `Scene.awaken`: the leads of a start, a choice and an update
* `Scene.goOn`, `Scene.resume`: what follows a wait that is over, and the lead of an update that has
  to find out
* `Scene.lead`, `Scene.proceed`: the lead of an operation, and what follows it

## Main results

* `Scene.apply_eq_proceed`: an operation is its lead and what follows it
* `Scene.kept_of_visit`, `Scene.settings_apply`: visits keep the script, and operations the
  configuration and the loader
-/

namespace DialogScript

/-- The statement of a choice on offer, by its place among them, counted from one. -/
def Player.picked? {ω : Type} (p : Player ω) (choice : Nat) : Option Statement :=
  if choice = 0 then none else p.offered[choice - 1]?.bind p.statement?

namespace Scene

variable {σ ω : Type} (h : Host σ ω)

/-- The player waits for the end of what a statement or a choice has begun. -/
def Waits (s : Scene σ ω) : Prop := s.player.phase = .waiting ∨ s.player.phase = .echoing

theorem waits_congr {s s' : Scene σ ω} (hphase : s'.player.phase = s.player.phase) :
    s'.Waits ↔ s.Waits := by rw [Waits, Waits, hphase]

/-- What follows a lead: an activation if the lead asks for it. -/
def proceed (lead : Bool × Scene σ ω) : Scene σ ω :=
  if lead.1 then lead.2.advance h else lead.2

@[simp] theorem proceed_true (s : Scene σ ω) : proceed h (true, s) = s.advance h := rfl

@[simp] theorem proceed_false (s : Scene σ ω) : proceed h (false, s) = s := rfl

/-- The lead of a start from a source. -/
def opening (s : Scene σ ω) (actor dialog label source : String) : Bool × Scene σ ω :=
  match Script.read source with
  | .error _ => (false, s.reading source)
  | .ok script => (s.opened actor dialog label source script).enter label

/-- The lead of a choice. -/
def pick (s : Scene σ ω) (choice : Nat) : Bool × Scene σ ω :=
  if s.player.phase ≠ .choosing then (false, s.remark (.pickIgnored choice s.player.phase))
  else
    match s.player.picked? choice with
    | none => (false, s.remark (.noSuchChoice choice))
    | some st =>
      match st.choice? with
      | none => (false, s)
      | some (_, text, target) =>
        if s.player.parrot then (false, (s.use st).echo h text target) else (s.use st).enter target

/-- The player goes on when what it waited for is over: behind the statement that began it, or at
the label of the choice that has been said. -/
def goOn (s : Scene σ ω) : Bool × Scene σ ω :=
  match s.player.phase with
  | .echoing =>
    { s with player := { s.player with destination := "" } }.enter s.player.destination
  | _ => (true, s.step)

/-- The lead of an update of a player that waits. -/
def resume (s : Scene σ ω) : Bool × Scene σ ω :=
  match s.pollWait h with
  | (true, s) => s.goOn
  | (false, s) => (false, s)

/-- The lead of an update. -/
def awaken (s : Scene σ ω) : Bool × Scene σ ω :=
  match s.player.phase with
  | .idle | .choosing => (false, s)
  | .entered | .running => (true, s)
  | .waiting | .echoing => s.resume h

theorem awaken_of_waits {s : Scene σ ω} (hs : s.Waits) : s.awaken h = s.resume h := by
  rw [awaken]
  rcases hs with hphase | hphase <;> rw [hphase]

/-- A player that does not wait goes on as it is or stays as it is. -/
theorem awaken_of_not_waits {s : Scene σ ω} (hs : ¬s.Waits) : ∃ goes, s.awaken h = (goes, s) := by
  rw [awaken]
  cases hphase : s.player.phase with
  | idle | choosing => exact ⟨false, rfl⟩
  | entered | running => exact ⟨true, rfl⟩
  | waiting => exact absurd (.inl hphase) hs
  | echoing => exact absurd (.inr hphase) hs

/-- The lead of an operation. -/
def lead (s : Scene σ ω) : Operation → Bool × Scene σ ω
  | .start actor dialog label =>
    match s.player.loader dialog with
    | .error _ => (false, s.reset)
    | .ok source => s.opening actor dialog label source
  | .startSource actor dialog label source => s.opening actor dialog label source
  | .update => s.awaken h
  | .choose choice => s.pick h choice
  | .goTo label => s.enter label
  | .finish => (false, s.finish)
  | .setLog log => (false, { s with player := s.player.withLog log })

variable {h}

theorem goTo_eq_proceed (s : Scene σ ω) (label : String) :
    s.goTo h label = proceed h (s.enter label) := by
  rw [goTo]
  rcases s.enter label with ⟨_ | _, s'⟩ <;> rfl

theorem startSource_eq_proceed (s : Scene σ ω) (actor dialog label source : String) :
    (s.startSource h actor dialog label source).2 =
      proceed h (s.opening actor dialog label source) := by
  rw [opening]
  cases hread : Script.read source with
  | error e => rw [startSource_of_error hread, proceed_false]
  | ok script => rw [startSource_of_ok hread, goTo_eq_proceed]

theorem choose_eq_proceed (s : Scene σ ω) (choice : Nat) :
    s.choose h choice = proceed h (s.pick h choice) := by
  by_cases hphase : s.player.phase = .choosing
  · have hpicked : (if choice = 0 then none else
        s.player.offered[choice - 1]?.bind s.player.statement?) = s.player.picked? choice := rfl
    simp only [choose, pick, hphase, ne_eq, not_true_eq_false, if_false, hpicked]
    cases s.player.picked? choice with
    | none => rfl
    | some st =>
        dsimp only
        rcases st.choice? with _ | ⟨number, text, target⟩
        · rfl
        · dsimp only
          cases s.player.parrot with
          | false => exact goTo_eq_proceed (s.use st) target
          | true => rfl
  · simp [choose, pick, hphase]

theorem update_eq_proceed (s : Scene σ ω) : s.update h = proceed h (s.awaken h) := by
  rw [update, awaken]
  cases hphase : s.player.phase with
  | idle | choosing | entered | running => rfl
  | waiting | echoing =>
      dsimp only
      rw [resume]
      rcases hpoll : s.pollWait h with ⟨_ | _, s'⟩ <;> have hplayer := player_pollWait hpoll
      · rfl
      · simp [goOn, hplayer, hphase, goTo_eq_proceed]

/-- An operation is its lead and what follows it. -/
theorem apply_eq_proceed (s : Scene σ ω) (op : Operation) :
    s.apply h op = proceed h (s.lead h op) := by
  cases op with
  | start actor dialog label =>
      change (s.start h actor dialog label).2 = _
      rw [start, lead]
      cases s.player.loader dialog with
      | error e => rfl
      | ok source => exact startSource_eq_proceed s actor dialog label source
  | startSource actor dialog label source =>
      exact startSource_eq_proceed s actor dialog label source
  | update => exact update_eq_proceed s
  | choose choice => exact choose_eq_proceed s choice
  | goTo label => exact goTo_eq_proceed s label
  | finish => rfl
  | setLog log => rfl

/-! ### What visits and operations keep -/

/-- The script, the configuration and the loader are the same. -/
def Kept (s s' : Scene σ ω) : Prop :=
  s'.player.script = s.player.script ∧ s'.player.config = s.player.config ∧
    s'.player.loader = s.player.loader

theorem Kept.script {s s' : Scene σ ω} (hkept : Kept s s') :
    s'.player.script = s.player.script := hkept.1

theorem Kept.config {s s' : Scene σ ω} (hkept : Kept s s') :
    s'.player.config = s.player.config := hkept.2.1

theorem Kept.loader {s s' : Scene σ ω} (hkept : Kept s s') :
    s'.player.loader = s.player.loader := hkept.2.2

theorem Kept.trans {s s₁ s' : Scene σ ω} (h₁ : Kept s s₁) (h₂ : Kept s₁ s') : Kept s s' :=
  ⟨h₂.script.trans h₁.script, h₂.config.trans h₁.config, h₂.loader.trans h₁.loader⟩

theorem kept_judge {s s₁ : Scene σ ω} {st : Statement} {accepted : Bool}
    (hjudge : s.judge h st = (accepted, s₁)) : Kept s s₁ := by
  have hplayer := player_of_judge hjudge
  simp [Kept, hplayer]

theorem kept_run {s s₁ : Scene σ ω} {st : Statement} {flow : Flow ω}
    (hrun : s.run h st = (flow, s₁)) : Kept s s₁ := by
  have hplayer := player_of_run hrun
  simp [Kept, hplayer]

theorem kept_finish (s : Scene σ ω) : Kept s s.finish := by
  simp [Kept, player_finish]

theorem kept_enter (s : Scene σ ω) (name : String) : Kept s (s.enter name).2 := by
  rw [enter]
  split
  · exact ⟨rfl, rfl, rfl⟩
  · exact kept_finish (s.remark _)

theorem kept_of_enter {s s' : Scene σ ω} {name : String} {found : Bool}
    (henter : s.enter name = (found, s')) : Kept s s' := by
  have hkept := kept_enter s name
  rwa [henter] at hkept

theorem kept_offer (s : Scene σ ω) (number : Int32) : Kept s (s.offer number) := by
  obtain ⟨slots, hplayer⟩ := player_offer s number
  simp [Kept, hplayer]

/-- A visit keeps the script, the configuration and the loader. -/
theorem kept_of_visit {s : Scene σ ω} {o : Outcome σ ω} (hvisit : Visit h s o) :
    Kept s o.scene := by
  cases hvisit with
  | nowhere | ended => exact kept_finish s
  | choosing | through => exact ⟨rfl, rfl, rfl⟩
  | rejected _ hjudge | held _ hjudge =>
      obtain ⟨hscript, hconfig, hloader⟩ := kept_judge hjudge
      exact ⟨hscript, hconfig, hloader⟩
  | offered _ hjudge =>
      obtain ⟨hscript, hconfig, hloader⟩ := (kept_judge hjudge).trans (kept_offer _ _)
      exact ⟨hscript, hconfig, hloader⟩
  | ran _ hjudge _ _ hrun | awaited _ hjudge _ _ hrun | jumped _ hjudge _ _ hrun =>
      obtain ⟨hscript, hconfig, hloader⟩ := (kept_judge hjudge).trans (kept_run hrun)
      exact ⟨hscript, hconfig, hloader⟩

/-- Running statements keeps the script, the configuration and the loader. -/
theorem kept_advance (h : Host σ ω) (s : Scene σ ω) : Kept s (s.advance h) := by
  refine Activation.induct (P := Kept s) (Q := Kept s)
    (fun hs hvisit => hs.trans (kept_of_visit hvisit))
    (fun hs hvisit => hs.trans (kept_of_visit hvisit)) ?_ ?_ ?_ (activation_advance s)
    ⟨rfl, rfl, rfl⟩
  · intro s₁ s₂ name hs hvisit _
    have hjump : Kept s s₂ := hs.trans (kept_of_visit hvisit)
    exact hjump.trans (kept_finish (s₂.remark _))
  · intro s₁ s₂ name i hs hvisit _
    exact hs.trans (kept_of_visit hvisit)
  · intro s₁ s₂ name i hs hvisit _
    exact hs.trans (kept_of_visit hvisit)

theorem kept_goOn (s : Scene σ ω) : Kept s s.goOn.2 := by
  rw [goOn]
  split
  · exact kept_enter _ _
  · exact ⟨rfl, rfl, rfl⟩

theorem kept_pollWait {s s' : Scene σ ω} {ready : Bool} (hpoll : s.pollWait h = (ready, s')) :
    Kept s s' := by
  have hplayer := player_pollWait hpoll
  cases ready <;> exact ⟨by rw [hplayer], by rw [hplayer], by rw [hplayer]⟩

theorem kept_resume (h : Host σ ω) (s : Scene σ ω) : Kept s (s.resume h).2 := by
  rw [resume]
  rcases hpoll : s.pollWait h with ⟨_ | _, s'⟩
  · exact kept_pollWait hpoll
  · exact (kept_pollWait hpoll).trans (kept_goOn s')

theorem kept_awaken (h : Host σ ω) (s : Scene σ ω) : Kept s (s.awaken h).2 := by
  by_cases hs : s.Waits
  · rw [awaken_of_waits h hs]
    exact kept_resume h s
  · obtain ⟨goes, hlead⟩ := awaken_of_not_waits h hs
    rw [hlead]
    exact ⟨rfl, rfl, rfl⟩

theorem kept_pick (h : Host σ ω) (s : Scene σ ω) (choice : Nat) : Kept s (s.pick h choice).2 := by
  rw [pick]
  split
  · exact ⟨rfl, rfl, rfl⟩
  · split
    · exact ⟨rfl, rfl, rfl⟩
    · split
      · exact ⟨rfl, rfl, rfl⟩
      · split
        · exact ⟨rfl, rfl, rfl⟩
        · exact kept_enter _ _

theorem settings_opening (s : Scene σ ω) (actor dialog label source : String) :
    (s.opening actor dialog label source).2.player.config = s.player.config ∧
      (s.opening actor dialog label source).2.player.loader = s.player.loader := by
  rw [opening]
  split
  · simp [player_reading, Player.dismissed]
  · rw [(kept_enter _ _).config, (kept_enter _ _).loader, player_opened, Player.dismissed]
    exact ⟨rfl, rfl⟩

/-- No operation changes the configuration or the loader. -/
theorem settings_apply (h : Host σ ω) (s : Scene σ ω) (op : Operation) :
    (s.apply h op).player.config = s.player.config ∧
      (s.apply h op).player.loader = s.player.loader := by
  have hproceed (lead : Bool × Scene σ ω) :
      (proceed h lead).player.config = lead.2.player.config ∧
        (proceed h lead).player.loader = lead.2.player.loader := by
    rcases lead with ⟨_ | _, s'⟩
    · exact ⟨rfl, rfl⟩
    · exact (kept_advance h s').2
  rw [apply_eq_proceed, (hproceed _).1, (hproceed _).2]
  cases op with
  | start actor dialog label =>
      rw [lead]
      split
      · simp [player_reset, Player.dismissed]
      · exact settings_opening s actor dialog label _
  | startSource actor dialog label source => exact settings_opening s actor dialog label source
  | update => exact (kept_awaken h s).2
  | choose choice => exact (kept_pick h s choice).2
  | goTo label => exact (kept_enter s label).2
  | finish => exact (kept_finish s).2
  | setLog log => exact ⟨rfl, rfl⟩

theorem config_apply (h : Host σ ω) (s : Scene σ ω) (op : Operation) :
    (s.apply h op).player.config = s.player.config := (settings_apply h s op).1

end Scene

end DialogScript
