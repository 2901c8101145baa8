import DialogScript.Proofs.Player.Playthrough
import DialogScript.Proofs.Player.Workload

/-!
# The number of jumps changes only the pacing

An update that has made all the jumps it may leaves the rest to the next update. Two players that
may make different numbers of jumps therefore stop at different places of one and the same course.

The finest course rests after every jump: a *tick* does what is due up to the first jump. What is
seen of a step, when the number of jumps and the remark that they are spent are left out, is one
tick and then further ticks of a running player. A playthrough thus passes through the states of
the finest course in order and stops at all of them in which the player is not running; so does a
playthrough with any other number of jumps.

## Main definitions

* `Host.unpaced`: the view that leaves out the number of jumps
* `Scene.settle`, `Playthrough.tick`: what follows a lead, and what is due, up to the first jump
* `Playthrough.Through`: ticks of a running player

## Main results

* `Playthrough.through_step`: a step is a tick and further ticks of a running player
* `Playthrough.passes_run`: a playthrough stops wherever the finest course is not running
* `Playthrough.paced_of_run`: the number of jumps changes only the pacing
-/

namespace DialogScript

variable {σ ω : Type} (h : Host σ ω)

/-- The view of a host that leaves out how many jumps an update makes. -/
def Host.unpaced : h.View h where
  state := id
  handle := id
  polls := true
  jumps := false
  perform _ _ := rfl
  begin _ _ := rfl
  holds _ _ := rfl
  admits _ _ _ _ := rfl

/-- The player with another number of jumps that an update may make. -/
def Player.paced (p : Player ω) (jumps : Nat) : Player ω :=
  { p with config := { p.config with maxJumps := jumps } }

/-- The scene with another number of jumps that an update may make. -/
def Scene.paced (s : Scene σ ω) (jumps : Nat) : Scene σ ω :=
  { s with player := s.player.paced jumps }

theorem Host.keepsPolls_unpaced : h.unpaced.KeepsPolls := ⟨rfl, fun _ _ => rfl⟩

theorem Host.calls_unpaced (s : Scene σ ω) : (h.unpaced.scene s).calls = s.calls := by
  have hshown : ∀ c ∈ s.calls, h.unpaced.shows (.call c) = true := by
    intro c _
    cases c <;> rfl
  have hmap : Call.map h.unpaced.handle = id := funext Call.map_id
  rw [Host.View.calls_scene, List.filter_eq_self.mpr hshown, hmap, List.map_id]

/-- Players that look the same without the number of jumps differ in nothing else. -/
theorem Host.eq_paced_of_player_eq {p q : Player ω} (hp : h.unpaced.player p = h.unpaced.player q) :
    q = p.paced q.config.maxJumps := by
  cases p with
  | mk loader config =>
      cases config
      cases q with
      | mk loader' config' =>
          cases config'
          simp_all [Host.View.player, Host.View.config, Host.unpaced, Player.paced]

namespace Scene

/-- What follows a lead, up to the first jump. -/
def settle (lead : Bool × Scene σ ω) : Scene σ ω :=
  if lead.1 then ((lead.2.inPhase .running).stretch h).2 else lead.2

theorem inPhase_of_phase {s : Scene σ ω} {phase : Phase} (hphase : s.player.phase = phase) :
    s.inPhase phase = s := by
  rw [← hphase]
  rfl

variable {h}

theorem running_of_stretch {s s' : Scene σ ω} {name : String}
    (hstretch : s.stretch h = (some name, s')) : s'.player.phase = .running := by
  rw [stretch] at hstretch
  split at hstretch
  · cases hstretch
  · split at hstretch
    · cases hstretch
    · obtain ⟨-, rfl⟩ := Prod.mk.inj hstretch
      rfl

theorem settle_unpaced (lead : Bool × Scene σ ω) :
    settle h (lead.map id h.unpaced.scene) = h.unpaced.scene (settle h lead) := by
  rcases lead with ⟨_ | _, s⟩
  · rfl
  · exact congrArg Prod.snd (h.unpaced.stretch_scene (s.inPhase .running))

/-! ### Transcripts grow -/

theorem Effort.calls_prefix {a b : Nat} {s s' : Scene σ ω} (heffort : Effort a b s s') :
    s.calls <+: s'.calls := by
  obtain ⟨more, hevents, -, -⟩ := heffort
  exact ⟨more.filterMap Event.call?, by
    rw [calls, calls, ← List.filterMap_append]
    exact congrArg _ hevents.symm⟩

theorem calls_prefix_stretch (s : Scene σ ω) : s.calls <+: (s.stretch h).2.calls := by
  have heffort := effort_of_activation (activation_runJumps (h := h) 0 s) Nat.one_pos
  have hprefix := heffort.calls_prefix
  rw [runJumps_succ] at hprefix
  rcases hstretch : s.stretch h with ⟨_ | name, s₁⟩ <;> rw [hstretch] at hprefix
  · exact hprefix
  · simpa using hprefix

theorem calls_prefix_settle (lead : Bool × Scene σ ω) :
    lead.2.calls <+: (settle h lead).calls := by
  rcases lead with ⟨_ | _, s⟩
  · exact List.prefix_refl _
  · exact calls_prefix_stretch (s.inPhase .running)

end Scene

namespace Playthrough

/-- Does what is due, up to the first jump. -/
def tick : Playthrough σ ω → Playthrough σ ω :=
  stepBy fun s op => Scene.settle h (s.lead h op)

/-- The first playthrough comes to the second by so many ticks of a running player. -/
def Through (k : Nat) (p q : Playthrough σ ω) : Prop :=
  q = (tick h)^[k] p ∧ ∀ i < k, ((tick h)^[i] p).scene.player.phase = .running

variable {h}

theorem Through.refl (p : Playthrough σ ω) : Through h 0 p p := ⟨rfl, by simp⟩

theorem Through.head {k : Nat} {p q : Playthrough σ ω} (hp : p.scene.player.phase = .running)
    (hthrough : Through h k (p.tick h) q) : Through h (k + 1) p q := by
  obtain ⟨hq, hrunning⟩ := hthrough
  refine ⟨hq, fun i hi => ?_⟩
  cases i with
  | zero => exact hp
  | succ i => exact hrunning i (by omega)

/-- A running player goes on to the next jump. -/
theorem tick_of_running {p : Playthrough σ ω} (hp : p.scene.player.phase = .running) :
    p.tick h = ⟨(p.scene.stretch h).2, p.choices⟩ := by
  have hdue : p.due? = some (.update, p.choices) := by simp [due?, hp]
  have hlead : p.scene.lead h .update = (true, p.scene) := by simp [Scene.lead, Scene.awaken, hp]
  simp only [tick, stepBy, hdue, hlead, Scene.settle, if_true, Scene.inPhase_of_phase hp]

/-- What is due plays the current script. -/
theorem plays_of_due? {p : Playthrough σ ω} {op : Operation} {choices : List Nat}
    (hdue : p.due? = some (op, choices)) : p.scene.Plays op p.scene.player.script := by
  rcases of_due? hdue with rfl | ⟨choice, rfl⟩
  · exact .update
  · exact .choose choice

theorem calls_prefix_tick (p : Playthrough σ ω) : p.scene.calls <+: (p.tick h).scene.calls := by
  rw [tick, stepBy]
  split
  · exact List.prefix_refl _
  · rename_i op choices hdue
    obtain ⟨heffort, -, -⟩ := Scene.effort_lead h p.scene (plays_of_due? hdue)
    exact heffort.calls_prefix.trans (Scene.calls_prefix_settle _)

theorem calls_prefix_ticks {m n : Nat} (hle : m ≤ n) (p : Playthrough σ ω) :
    ((tick h)^[m] p).scene.calls <+: ((tick h)^[n] p).scene.calls := by
  induction hle with
  | refl => exact List.prefix_refl _
  | step _ ih =>
      rw [Function.iterate_succ_apply']
      exact ih.trans (calls_prefix_tick _)

/-! ### The finest course -/

/-- What is seen of a playthrough when the number of jumps is left out. -/
abbrev unpaced (h : Host σ ω) : Playthrough σ ω → Playthrough σ ω := h.unpaced.playthrough

theorem tick_unpaced (p : Playthrough σ ω) : (p.unpaced h).tick h = (p.tick h).unpaced h := by
  refine h.unpaced.stepBy_playthrough (fun s op => ?_) p
  rw [Host.View.lead_scene h.keepsPolls_unpaced, Scene.settle_unpaced]

/-- A run through many jumps is a run up to the first jump and further ticks of a running player. -/
theorem through_runJumps (choices : List Nat) (n : Nat) (s : Scene σ ω) :
    ∃ k, Through h k (unpaced h ⟨(s.stretch h).2, choices⟩)
      (unpaced h ⟨s.runJumps h (n + 1), choices⟩) := by
  induction n generalizing s with
  | zero =>
      refine ⟨0, ?_⟩
      rw [Scene.runJumps_succ]
      rcases s.stretch h with ⟨_ | name, s₁⟩
      · exact .refl _
      · have hhidden := h.unpaced.scene_note_of_hidden s₁ (e := .remark (.jumpsSpent name)) rfl
        exact ⟨congrArg (Playthrough.mk · choices) hhidden, by simp⟩
  | succ n ih =>
      rw [Scene.runJumps_succ]
      rcases hstretch : s.stretch h with ⟨_ | name, s₁⟩
      · exact ⟨0, .refl _⟩
      · obtain ⟨k, hthrough⟩ := ih s₁
        have hrunning := Scene.running_of_stretch hstretch
        refine ⟨k + 1, .head hrunning ?_⟩
        rw [tick_unpaced, tick_of_running hrunning]
        exact hthrough

/-- What follows a lead is what follows it up to the first jump and further ticks of a running
player. -/
theorem through_proceed (choices : List Nat) (lead : Bool × Scene σ ω) :
    ∃ k, Through h k (unpaced h ⟨Scene.settle h lead, choices⟩)
      (unpaced h ⟨Scene.proceed h lead, choices⟩) := by
  rcases lead with ⟨_ | _, s⟩
  · exact ⟨0, .refl _⟩
  · obtain ⟨n, hn⟩ : ∃ n, max 1 s.player.config.maxJumps = n + 1 :=
      ⟨max 1 s.player.config.maxJumps - 1, by omega⟩
    rw [Scene.proceed_true, Scene.advance, hn]
    exact through_runJumps choices n _

/-- A step is a tick and further ticks of a running player. -/
theorem through_step (p : Playthrough σ ω) :
    ∃ k, Through h k ((p.unpaced h).tick h) ((p.step h).unpaced h) := by
  rw [tick_unpaced, tick, step, stepBy, stepBy]
  rcases p.due? with _ | ⟨op, choices⟩
  · exact ⟨0, .refl _⟩
  · dsimp only
    rw [Scene.apply_eq_proceed]
    exact through_proceed choices _

/-- A playthrough that has come from a place of the finest course goes on along the course. It has
stopped wherever the player is not running. -/
theorem passes_run {p q : Playthrough σ ω} (hstart : ∃ k, Through h k q (p.unpaced h)) (n : Nat) :
    ∃ k, n ≤ k ∧ (p.run h n).unpaced h = (tick h)^[k] q ∧
      ∀ i < k, ((tick h)^[i] q).scene.player.phase = .running ∨
        ∃ m, (p.run h m).unpaced h = (tick h)^[i] q := by
  induction n with
  | zero =>
      obtain ⟨k, hp, hrunning⟩ := hstart
      exact ⟨k, Nat.zero_le k, hp, fun i hi => .inl (hrunning i hi)⟩
  | succ n ih =>
      obtain ⟨k, hle, hrun, hpassed⟩ := ih
      obtain ⟨j, hstep, hrunning⟩ := through_step (h := h) (p.run h n)
      have htick (i : Nat) : (tick h)^[i] (((p.run h n).unpaced h).tick h) =
          (tick h)^[i + (k + 1)] q := by
        rw [hrun, Function.iterate_add_apply, Function.iterate_succ_apply']
      refine ⟨j + (k + 1), by omega, ?_, fun i hi => ?_⟩
      · rw [run_succ, hstep, htick]
      · -- before the last stop, at it, or on the way from there to the next one
        rcases Nat.lt_trichotomy i k with hlt | rfl | hlt
        · exact hpassed i hlt
        · exact .inr ⟨n, hrun⟩
        · obtain ⟨i, rfl⟩ : ∃ i', i = i' + (k + 1) := ⟨i - (k + 1), by omega⟩
          rw [← htick]
          exact .inl (hrunning i (by omega))

/-- A playthrough begins at a place of the finest course, whatever the number of jumps. -/
theorem through_ofStart (s : Scene σ ω) (jumps : Nat) (actor dialog label source : String)
    (choices : List Nat) :
    let op : Operation := .startSource actor dialog label source
    ∃ k, Through h k (unpaced h ⟨Scene.settle h (s.lead h op), choices⟩)
      ((ofStart h (s.paced jumps) actor dialog label source choices).unpaced h) := by
  intro op
  have hlead : (s.lead h op).map id h.unpaced.scene =
      ((s.paced jumps).lead h op).map id h.unpaced.scene := by
    rw [← Host.View.lead_scene h.keepsPolls_unpaced, ← Host.View.lead_scene h.keepsPolls_unpaced]
    rfl
  have hsettle : unpaced h ⟨Scene.settle h (s.lead h op), choices⟩ =
      unpaced h ⟨Scene.settle h ((s.paced jumps).lead h op), choices⟩ := by
    refine congrArg (Playthrough.mk · choices) ?_
    rw [← Scene.settle_unpaced, hlead, Scene.settle_unpaced]
  rw [hsettle, ofStart, Scene.apply_eq_proceed]
  exact through_proceed choices _

/-- A playthrough keeps the configuration. -/
theorem config_run (p : Playthrough σ ω) (n : Nat) :
    (p.run h n).scene.player.config = p.scene.player.config := by
  induction n with
  | zero => rfl
  | succ n ih =>
      rw [run_succ, ← ih, step, stepBy]
      split
      · rfl
      · exact Scene.config_apply h _ _

/-- The number of jumps that an update may make changes only the pacing. A playthrough calls the
host in the same order whatever the number of jumps; and wherever its player is not running, so far
has come the playthrough with another number of jumps, with the same calls, the same state of the
host, the same choices left and the same player but for that number. -/
theorem paced_of_run (h : Host σ ω) (s : Scene σ ω) (jumps : Nat)
    (actor dialog label source : String) (choices : List Nat) (n : Nat) :
    let first := (ofStart h s actor dialog label source choices).run h n
    let second := fun m => (ofStart h (s.paced jumps) actor dialog label source choices).run h m
    (∃ m, first.scene.calls <+: (second m).scene.calls) ∧
      (first.scene.player.phase ≠ .running → ∃ m,
        (second m).scene.calls = first.scene.calls ∧
        (second m).scene.host = first.scene.host ∧
        (second m).choices = first.choices ∧
        (second m).scene.player = first.scene.player.paced jumps) := by
  intro first second
  have hcalls (p : Playthrough σ ω) : (p.unpaced h).scene.calls = p.scene.calls :=
    h.calls_unpaced p.scene
  have hsecond := through_ofStart (h := h) s jumps actor dialog label source choices
  have hfirst := through_ofStart (h := h) s s.player.config.maxJumps actor dialog label source
    choices
  obtain ⟨k, -, hrun, -⟩ := passes_run hfirst n
  change first.unpaced h = _ at hrun
  constructor
  · obtain ⟨j, hle, hrun', -⟩ := passes_run hsecond k
    change (second k).unpaced h = _ at hrun'
    refine ⟨k, ?_⟩
    rw [← hcalls first, ← hcalls (second k), hrun, hrun']
    exact calls_prefix_ticks hle _
  · intro hphase
    obtain ⟨j, hle, -, hpassed⟩ := passes_run hsecond (k + 1)
    obtain ⟨m, hm⟩ : ∃ m, (second m).unpaced h = first.unpaced h := by
      rcases hpassed k (by omega) with hrunning | ⟨m, hm⟩
      · rw [← hrun] at hrunning
        exact absurd hrunning hphase
      · exact ⟨m, hm.trans hrun.symm⟩
    have hjumps : (second m).scene.player.config.maxJumps = jumps := by
      rw [config_run, ofStart, Scene.config_apply]
      rfl
    have hplayer := h.eq_paced_of_player_eq (congrArg (·.scene.player) hm.symm)
    refine ⟨m, ?_, congrArg (·.scene.host) hm, congrArg (·.choices) hm, ?_⟩
    · rw [← hcalls, hm, hcalls]
    · rw [hplayer, hjumps]

/-- With one jump an update, the end of the dialog is reached an update later than with two. -/
theorem paced_of_two_labels :
    let s : Scene Unit Unit := .fresh (fun _ => .ok "") { maxJumps := 1 } {} ()
    let source := ":s\n!x\n-> t\n:t\n!y"
    let first := fun n => (ofStart Host.instant s "a" "d" "s" source []).run Host.instant n
    let second := fun m => (ofStart Host.instant (s.paced 2) "a" "d" "s" source []).run
      Host.instant m
    (first 0).scene.player.phase = .running ∧ (second 0).scene.player.phase = .idle ∧
      (first 1).scene.player.phase ≠ .running ∧ (first 1).scene.calls.length = 3 ∧ ∃ m,
        (second m).scene.calls = (first 1).scene.calls ∧
        (second m).scene.host = (first 1).scene.host ∧
        (second m).choices = (first 1).choices ∧
        (second m).scene.player = (first 1).scene.player.paced 2 := by
  intro s source first second
  have hstopped : (first 1).scene.player.phase ≠ .running := by decide +kernel
  obtain ⟨-, hstops⟩ := paced_of_run Host.instant s 2 "a" "d" "s" source [] 1
  exact ⟨by decide +kernel, by decide +kernel, hstopped, by decide +kernel, hstops hstopped⟩

end Playthrough

end DialogScript
