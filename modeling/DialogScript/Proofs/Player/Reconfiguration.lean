import DialogScript.Proofs.Player.Pacing
import DialogScript.Proofs.Player.Picking
import DialogScript.Proofs.Player.Restart

/-!
# A new configuration in a running session

A new configuration replaces at once whether chosen texts are said and how many choices are
offered, and the next activation makes as many jumps as the new configuration allows. All else in it
waits for the next start. So a running session is left alone exactly if it is already played with
the first two values, and if the number of jumps is the same or the session never makes as many
jumps at once as the smaller of the two numbers.

That such a session cannot tell is shown of one part of it after the other: with another
configuration each does the same. That any other session can tell is shown where an activation comes
to the smaller number of jumps. The one player is left running there, and the other stops, or makes
at least one further jump, which is a further call of the host.

## Main definitions

* `Config.jumps`: how many jumps a player makes at once
* `Scene.configured`: a scene with another configuration and nothing else changed
* `Scene.reconfigured`: a scene whose player has been given a new configuration
* `Scene.makesJumps`, `Scene.makesJumpsIn`, `Scene.makesJumpsDuring`: from a scene, in an operation
  and in a run, so many jumps are made at once
* `Scene.AppearAlike`, `Scene.AppearAlikeDuring`: two scenes that neither the owner of the player
  nor the host can tell apart, at once and during a run

## Main results

* `Scene.runJumps_configured`, `Scene.lead_configured`: activations and leads do not depend on the
  configuration
* `Scene.runJumps_congr`, `Scene.jumps_show`: when two numbers of jumps make a difference
* `Scene.appearAlike_after_configured_iff`: when a run cannot tell the configuration
* `Scene.withConfig_unnoticed_iff`: when a session is left alone by a new configuration
-/

namespace DialogScript

variable {σ ω : Type} {h : Host σ ω}

/-- The number of jumps after which a player breaks off. -/
def Config.jumps (c : Config) : Nat := max 1 c.maxJumps

theorem Config.jumps_pos (c : Config) : 0 < c.jumps := Nat.le_max_left 1 c.maxJumps

namespace Scene

/-- The scene with another configuration, and nothing else changed. -/
def configured (s : Scene σ ω) (c : Config) : Scene σ ω :=
  { s with player := { s.player with config := c } }

section Configured

variable (s : Scene σ ω) (c : Config)

theorem finish_configured : (s.configured c).finish = s.finish.configured c := by
  have hphase : (s.configured c).player.phase = s.player.phase := rfl
  unfold finish
  rw [hphase]
  split <;> rfl

theorem enter_configured (name : String) :
    (s.configured c).enter name = (s.enter name).map id (configured · c) := by
  have hscript : (s.configured c).player.script = s.player.script := rfl
  unfold enter
  rw [hscript]
  split
  · rfl
  · exact congrArg (false, ·) (finish_configured (s.remark (.missing name s.player.dialog)) c)

theorem offer_configured (number : Int32) :
    (s.configured c).offer number = (s.offer number).configured c := by
  have hslots : (s.configured c).player.slots = s.player.slots := rfl
  have hoffered : (s.configured c).player.offered = s.player.offered := rfl
  have hlimit : (s.configured c).player.limit = s.player.limit := rfl
  unfold offer
  dsimp only
  rw [hslots, hoffered, hlimit]
  split
  · split
    · rfl
    · split <;> rfl
  · rfl

theorem ask_configured (cond : Condition) :
    (s.configured c).ask h cond = (s.ask h cond).map id (configured · c) := by
  unfold ask
  split <;> rfl

theorem askAll_configured (cs : List Condition) :
    (s.configured c).askAll h cs = (s.askAll h cs).map id (configured · c) := by
  induction cs generalizing s with
  | nil => rfl
  | cons cond cs ih =>
      rw [askAll, askAll, ask_configured]
      rcases s.ask h cond with ⟨_ | _, s₁⟩
      · rfl
      · exact ih s₁

theorem judge_configured (st : Statement) :
    (s.configured c).judge h st = (s.judge h st).map id (configured · c) := by
  rw [judge, judge, askAll_configured]
  rfl

theorem follow_configured (i : Instruction) :
    (s.configured c).follow h i = (s.follow h i).map id (configured · c) := by
  cases i <;> rfl

theorem run_configured (st : Statement) :
    (s.configured c).run h st = (s.run h st).map id (configured · c) := by
  let r : Remark := .ran s.player.dialog st.instruction.name s.player.currentLabel?
  exact congrArg (fun followed : Flow ω × Scene σ ω => (followed.1, followed.2.use st))
    (follow_configured (s.remark r) c st.instruction)

theorem runStatements_configured (sts : List Statement) :
    (s.configured c).runStatements h sts = (s.runStatements h sts).map id (configured · c) := by
  have hhas (s : Scene σ ω) : (s.configured c).player.hasChoices = s.player.hasChoices := rfl
  induction sts generalizing s with
  | nil =>
      rw [runStatements, runStatements, hhas]
      split <;> rfl
  | cons st sts ih =>
      rw [runStatements, runStatements, judge_configured]
      rcases s.judge h st with ⟨_ | _, s₁⟩
      · exact ih s₁.step
      · dsimp only [Prod.map, id]
        cases st.instruction with
        | choice number text target =>
            dsimp only
            rw [offer_configured]
            exact ih (s₁.offer number).step
        | _ =>
            dsimp only
            rw [hhas]
            split
            · rfl
            · rw [run_configured]
              rcases s₁.run h st with ⟨_ | handle | name, s₂⟩
              · exact ih s₂.step
              · rfl
              · rfl

theorem runLabels_configured (ls : List Label) :
    (s.configured c).runLabels h ls = (s.runLabels h ls).map id (configured · c) := by
  induction ls generalizing s with
  | nil => exact congrArg (none, ·) (finish_configured s c)
  | cons l ls ih =>
      have hcursor : (s.configured c).player.cursor = s.player.cursor := rfl
      rw [runLabels, runLabels, hcursor, runStatements_configured]
      rcases s.runStatements h (l.statements.drop s.player.cursor) with ⟨_ | _ | name, s₁⟩
      · rfl
      · dsimp only [Prod.map, id]
        split
        · exact congrArg (none, ·) (finish_configured s₁ c)
        · exact ih ((s₁.enterAt (s₁.player.label.elim 0 (· + 1))).inPhase .running)
      · rfl

theorem stretch_configured :
    (s.configured c).stretch h = (s.stretch h).map id (configured · c) := by
  have hahead : (s.configured c).labelsAhead = s.labelsAhead := rfl
  rw [stretch, stretch, hahead, runLabels_configured]
  rcases s.runLabels h s.labelsAhead with ⟨_ | name, s₁⟩
  · rfl
  · dsimp only [Prod.map, id]
    rw [enter_configured]
    rcases s₁.enter name with ⟨_ | _, s₂⟩ <;> rfl

theorem runJumps_configured (n : Nat) :
    (s.configured c).runJumps h n = (s.runJumps h n).configured c := by
  induction n generalizing s with
  | zero => rfl
  | succ n ih =>
      rw [runJumps_succ, runJumps_succ, stretch_configured]
      rcases s.stretch h with ⟨_ | name, s₁⟩
      · rfl
      · dsimp only [Prod.map, id]
        split
        · rfl
        · exact ih s₁

theorem advance_configured : (s.configured c).advance h =
    ((s.inPhase .running).runJumps h c.jumps).configured c :=
  runJumps_configured (s.inPhase .running) c c.jumps

theorem pollWait_configured :
    (s.configured c).pollWait h = (s.pollWait h).map id (configured · c) := by
  have hwait : (s.configured c).player.wait = s.player.wait := rfl
  unfold pollWait
  rw [hwait]
  cases s.player.wait with
  | none => rfl
  | some handle =>
      have hpoll : (s.configured c).poll h handle = (s.poll h handle).map id (configured · c) := rfl
      dsimp only
      rw [hpoll]
      rcases s.poll h handle with ⟨_ | _, s₁⟩ <;> rfl

theorem goOn_configured : (s.configured c).goOn = s.goOn.map id (configured · c) := by
  have hphase : (s.configured c).player.phase = s.player.phase := rfl
  unfold goOn
  rw [hphase]
  split
  · exact enter_configured { s with player := { s.player with destination := "" } } c _
  · rfl

theorem awaken_configured :
    (s.configured c).awaken h = (s.awaken h).map id (configured · c) := by
  have hresume : (s.configured c).resume h = (s.resume h).map id (configured · c) := by
    rw [resume, resume, pollWait_configured]
    rcases s.pollWait h with ⟨_ | _, s₁⟩
    · rfl
    · exact goOn_configured s₁ c
  have hphase : (s.configured c).player.phase = s.player.phase := rfl
  unfold awaken
  rw [hphase]
  cases s.player.phase with
  | idle | choosing | entered | running => rfl
  | waiting | echoing => exact hresume

theorem pick_configured (choice : Nat) :
    (s.configured c).pick h choice = (s.pick h choice).map id (configured · c) := by
  have hphase : (s.configured c).player.phase = s.player.phase := rfl
  have hpicked : (s.configured c).player.picked? choice = s.player.picked? choice := rfl
  have hparrot : (s.configured c).player.parrot = s.player.parrot := rfl
  unfold pick
  rw [hphase, hpicked, hparrot]
  split
  · rfl
  · split
    · rfl
    · split
      · rfl
      · split
        · rfl
        · exact enter_configured (s.use _) c _

/-- What an operation of the session does before it runs statements does not depend on the
configuration. -/
theorem lead_configured {op : Operation} (hop : op.stays = true) :
    (s.configured c).lead h op = (s.lead h op).map id (configured · c) := by
  cases op with
  | start | startSource | setLog => cases hop
  | update => exact awaken_configured s c
  | choose choice => exact pick_configured s c choice
  | goTo label => exact enter_configured s c label
  | finish => exact congrArg (false, ·) (finish_configured s c)

end Configured

/-! ### Jumps in a row -/

variable (h) in
/-- The player makes so many jumps before it waits, offers choices or ends the dialog. -/
def makesJumps : Nat → Scene σ ω → Bool
  | 0, _ => true
  | n + 1, s =>
    match s.stretch h with
    | (none, _) => false
    | (some _, s) => makesJumps n s

/-- A visit that ends an activation does not leave the player running. -/
theorem phase_ne_running_of_halt {s s' : Scene σ ω} (hvisit : Visit h s (.halt s')) :
    s'.player.phase ≠ .running := by
  cases hvisit <;> simp

/-- A jump calls the host. -/
theorem length_calls_lt_of_jump {s s' : Scene σ ω} {name : String}
    (hvisit : Visit h s (.jump name s')) : s.calls.length < s'.calls.length := by
  cases hvisit with
  | @jumped st s₁ s₂ name hhere hjudge hchoice hopen hrun =>
      obtain ⟨asked, -, hasked⟩ := judge_refines hjudge
      obtain ⟨r, calls, rfl, hevents⟩ := calls_run hrun
      have hcalls : s'.calls = s₁.calls ++ [.effect (.goto name)] := by
        have hran := congrArg (List.filterMap Event.call?) hevents
        rw [List.filterMap_append, List.filterMap_append] at hran
        exact hran.trans (List.append_nil _)
      rw [hcalls, hasked, List.length_append, List.length_append, List.length_singleton]
      omega

/-- Visits that lead on only add to the calls. -/
theorem calls_prefix_of_visits {s s' : Scene σ ω} (hvisits : Visits h s s') :
    s.calls <+: s'.calls := by
  induction hvisits with
  | refl => exact List.prefix_refl _
  | tail _ hvisit ih =>
      obtain ⟨⟨k, heffort, -⟩, -⟩ := effort_of_on hvisit
      exact ih.trans heffort.calls_prefix

/-- A run up to a stop does not leave the player running. -/
theorem phase_ne_running_of_stretch {s s' : Scene σ ω} (hstretch : s.stretch h = (none, s')) :
    s'.player.phase ≠ .running := by
  have hleg := leg_of_labelsAhead (h := h) s
  rw [stretch] at hstretch
  rcases hrun : s.runLabels h s.labelsAhead with ⟨_ | name, s₁⟩ <;> rw [hrun] at hleg hstretch
  · obtain ⟨-, rfl⟩ := Prod.mk.inj hstretch
    obtain ⟨s₀, -, hvisit⟩ := hleg
    exact phase_ne_running_of_halt hvisit
  · dsimp only at hstretch
    rcases henter : s₁.enter name with ⟨_ | _, s₂⟩ <;> rw [henter] at hstretch
    · obtain ⟨-, rfl⟩ := of_enter_false henter
      obtain ⟨-, rfl⟩ := Prod.mk.inj hstretch
      simp
    · cases hstretch

/-- A run up to a jump calls the host. -/
theorem length_calls_lt_of_stretch {s s' : Scene σ ω} {name : String}
    (hstretch : s.stretch h = (some name, s')) : s.calls.length < s'.calls.length := by
  have hleg := leg_of_labelsAhead (h := h) s
  rw [stretch] at hstretch
  rcases hrun : s.runLabels h s.labelsAhead with ⟨_ | name, s₁⟩ <;> rw [hrun] at hleg hstretch
  · cases hstretch
  · dsimp only at hstretch
    rcases henter : s₁.enter name with ⟨_ | _, s₂⟩ <;> rw [henter] at hstretch
    · cases hstretch
    · obtain ⟨-, rfl⟩ := Prod.mk.inj hstretch
      obtain ⟨s₀, hvisits, hvisit⟩ := hleg
      obtain ⟨hentered, -⟩ := silent_enter s₁ name
      rw [henter] at hentered
      change s.calls.length < s₂.calls.length
      rw [hentered]
      exact Nat.lt_of_le_of_lt (calls_prefix_of_visits hvisits).length_le
        (length_calls_lt_of_jump hvisit)

theorem runJumps_of_stop {s s' : Scene σ ω} (hstretch : s.stretch h = (none, s')) (n : Nat) :
    s.runJumps h (n + 1) = s' := by
  rw [runJumps_succ, hstretch]

theorem runJumps_one_of_jump {s s' : Scene σ ω} {name : String}
    (hstretch : s.stretch h = (some name, s')) :
    s.runJumps h 1 = s'.remark (.jumpsSpent name) := by
  rw [runJumps_succ, hstretch]
  rfl

theorem runJumps_succ_of_jump {s s' : Scene σ ω} {name : String}
    (hstretch : s.stretch h = (some name, s')) (n : Nat) :
    s.runJumps h (n + 2) = s'.runJumps h (n + 1) := by
  rw [runJumps_succ, hstretch]
  rfl

/-- A player that is left running has called the host. -/
theorem length_calls_lt_of_running {s : Scene σ ω} {n : Nat}
    (hrunning : (s.runJumps h (n + 1)).player.phase = .running) :
    s.calls.length < (s.runJumps h (n + 1)).calls.length := by
  rcases hstretch : s.stretch h with ⟨_ | name, s₁⟩
  · rw [runJumps_of_stop hstretch] at hrunning
    exact absurd hrunning (phase_ne_running_of_stretch hstretch)
  · have hlt := length_calls_lt_of_stretch hstretch
    cases n with
    | zero => rwa [runJumps_one_of_jump hstretch, calls_remark]
    | succ n =>
        rw [runJumps_succ_of_jump hstretch]
        have heffort := effort_of_activation (activation_runJumps (h := h) n s₁) (Nat.succ_pos n)
        exact Nat.lt_of_lt_of_le hlt heffort.calls_prefix.length_le

/-- A player that does not make so many jumps does the same if it may make more. -/
theorem runJumps_of_not_makesJumps {m n : Nat} {s : Scene σ ω} (hle : m ≤ n)
    (hfew : s.makesJumps h (m + 1) = false) : s.runJumps h (n + 1) = s.runJumps h (m + 1) := by
  induction m generalizing n s with
  | zero =>
      rcases hstretch : s.stretch h with ⟨_ | name, s₁⟩
      · rw [runJumps_of_stop hstretch, runJumps_of_stop hstretch]
      · simp [makesJumps, hstretch] at hfew
  | succ m ih =>
      obtain ⟨n, rfl⟩ : ∃ n', n = n' + 1 := ⟨n - 1, by omega⟩
      rcases hstretch : s.stretch h with ⟨_ | name, s₁⟩
      · rw [runJumps_of_stop hstretch, runJumps_of_stop hstretch]
      · rw [makesJumps, hstretch] at hfew
        rw [runJumps_succ_of_jump hstretch, runJumps_succ_of_jump hstretch]
        exact ih (Nat.le_of_succ_le_succ hle) hfew

/-- A player that makes so many jumps is left running if it may not make more. If it may, and is
left running too, it has called the host more often. -/
theorem length_calls_lt_of_makesJumps {m n : Nat} {s : Scene σ ω} (hlt : m < n)
    (hmany : s.makesJumps h (m + 1) = true)
    (hphase : (s.runJumps h (n + 1)).player.phase = (s.runJumps h (m + 1)).player.phase) :
    (s.runJumps h (m + 1)).calls.length < (s.runJumps h (n + 1)).calls.length := by
  induction m generalizing n s with
  | zero =>
      obtain ⟨n, rfl⟩ : ∃ n', n = n' + 1 := ⟨n - 1, by omega⟩
      rcases hstretch : s.stretch h with ⟨_ | name, s₁⟩
      · simp [makesJumps, hstretch] at hmany
      -- The one player is left running here, so the other has to be left running further on.
      · have hrunning := running_of_stretch hstretch
        rw [runJumps_one_of_jump hstretch, runJumps_succ_of_jump hstretch] at hphase ⊢
        rw [calls_remark]
        exact length_calls_lt_of_running (hphase.trans hrunning)
  | succ m ih =>
      obtain ⟨n, rfl⟩ : ∃ n', n = n' + 1 := ⟨n - 1, by omega⟩
      rcases hstretch : s.stretch h with ⟨_ | name, s₁⟩
      · simp [makesJumps, hstretch] at hmany
      · rw [makesJumps, hstretch] at hmany
        rw [runJumps_succ_of_jump hstretch, runJumps_succ_of_jump hstretch] at hphase ⊢
        exact ih (Nat.lt_of_succ_lt_succ hlt) hmany hphase

/-- Two numbers of jumps make no difference if the smaller one is not made. -/
theorem runJumps_congr {m n : Nat} {s : Scene σ ω} (hm : 0 < m) (hn : 0 < n)
    (hfew : n = m ∨ s.makesJumps h (min m n) = false) : s.runJumps h n = s.runJumps h m := by
  rcases hfew with rfl | hfew
  · rfl
  · obtain ⟨m, rfl⟩ := Nat.exists_eq_succ_of_ne_zero (Nat.ne_of_gt hm)
    obtain ⟨n, rfl⟩ := Nat.exists_eq_succ_of_ne_zero (Nat.ne_of_gt hn)
    rcases Nat.le_total m n with hle | hle
    · rw [Nat.min_eq_left (Nat.succ_le_succ hle)] at hfew
      exact runJumps_of_not_makesJumps hle hfew
    · rw [Nat.min_eq_right (Nat.succ_le_succ hle)] at hfew
      exact (runJumps_of_not_makesJumps hle hfew).symm

/-- Two numbers of jumps show in the phase or in the calls if the smaller one is made. -/
theorem jumps_show {m n : Nat} {s : Scene σ ω} (hm : 0 < m) (hn : 0 < n) (hne : n ≠ m)
    (hmany : s.makesJumps h (min m n) = true)
    (hphase : (s.runJumps h n).player.phase = (s.runJumps h m).player.phase) :
    (s.runJumps h n).calls ≠ (s.runJumps h m).calls := by
  obtain ⟨m, rfl⟩ := Nat.exists_eq_succ_of_ne_zero (Nat.ne_of_gt hm)
  obtain ⟨n, rfl⟩ := Nat.exists_eq_succ_of_ne_zero (Nat.ne_of_gt hn)
  intro hcalls
  have hlength := congrArg List.length hcalls
  rcases Nat.lt_or_gt_of_ne hne with hlt | hlt
  · rw [Nat.min_eq_right (Nat.le_of_lt hlt)] at hmany
    exact absurd hlength (Nat.ne_of_lt
      (length_calls_lt_of_makesJumps (Nat.lt_of_succ_lt_succ hlt) hmany hphase.symm))
  · rw [Nat.min_eq_left (Nat.le_of_lt hlt)] at hmany
    exact absurd hlength (Nat.ne_of_gt
      (length_calls_lt_of_makesJumps (Nat.lt_of_succ_lt_succ hlt) hmany hphase))

/-! ### Operations -/

variable (h) in
/-- The operation makes so many jumps at once. -/
def makesJumpsIn (n : Nat) (s : Scene σ ω) (op : Operation) : Bool :=
  (s.lead h op).1 && ((s.lead h op).2.inPhase .running).makesJumps h n

variable (h) in
/-- An operation of the run makes so many jumps at once. -/
def makesJumpsDuring (n : Nat) : Scene σ ω → List Operation → Bool
  | _, [] => false
  | s, op :: ops => s.makesJumpsIn h n op || makesJumpsDuring n (s.apply h op) ops

/-- The same calls have been made in two scenes, and the players show the same to their owner. -/
structure AppearAlike (s t : Scene σ ω) : Prop where
  calls : t.calls = s.calls
  phase : t.player.phase = s.player.phase
  label : t.player.currentLabel? = s.player.currentLabel?
  choices : t.player.choices = s.player.choices
  choiceTexts : t.player.choiceTexts = s.player.choiceTexts
  parrot : t.player.parrot = s.player.parrot
  limit : t.player.limit = s.player.limit
  override : t.player.override = s.player.override
  log : t.player.log = s.player.log

variable (h) in
/-- The two scenes stay alike however far a run has come. -/
def AppearAlikeDuring (s t : Scene σ ω) (ops : List Operation) : Prop :=
  ∀ done, done <+: ops → AppearAlike (s.after h done) (t.after h done)

theorem AppearAlikeDuring.apply {s t : Scene σ ω} {op : Operation} {ops : List Operation}
    (halike : AppearAlikeDuring h s t (op :: ops)) :
    AppearAlike (s.apply h op) (t.apply h op) :=
  halike [op] (List.prefix_append [op] ops)

theorem appearAlike_configured (s : Scene σ ω) (c : Config) : AppearAlike s (s.configured c) :=
  ⟨rfl, rfl, rfl, rfl, rfl, rfl, rfl, rfl, rfl⟩

/-- The lead of an operation of the session keeps the configuration. -/
theorem config_lead (h : Host σ ω) (s : Scene σ ω) {op : Operation} (hop : op.stays = true) :
    (s.lead h op).2.player.config = s.player.config := by
  cases op with
  | start | startSource | setLog => cases hop
  | update => exact (kept_awaken h s).config
  | choose choice => exact (kept_pick h s choice).config
  | goTo label => exact (kept_enter s label).config
  | finish => exact (kept_finish s).config

/-- With either configuration an operation follows the same lead by running statements or not, and
makes as many jumps as its configuration allows. -/
theorem apply_configured_cases (s : Scene σ ω) (c : Config) {op : Operation}
    (hop : op.stays = true) :
    (s.configured c).apply h op = (s.apply h op).configured c ∧
        (∀ n, s.makesJumpsIn h n op = false) ∨
      ∃ s₁ : Scene σ ω, (∀ n, s.makesJumpsIn h n op = s₁.makesJumps h n) ∧
        s.apply h op = s₁.runJumps h s.player.config.jumps ∧
        (s.configured c).apply h op = (s₁.runJumps h c.jumps).configured c := by
  have hconfig := config_lead h s hop
  rw [apply_eq_proceed, apply_eq_proceed, lead_configured s c hop]
  rcases hlead : s.lead h op with ⟨_ | _, s₁⟩ <;> rw [hlead] at hconfig
  · exact .inl ⟨rfl, fun n => by rw [makesJumpsIn, hlead, Bool.false_and]⟩
  · refine .inr ⟨s₁.inPhase .running, fun n => by rw [makesJumpsIn, hlead, Bool.true_and], ?_, ?_⟩
    · rw [proceed_true, advance, hconfig]
      rfl
    · exact advance_configured s₁ c

/-- An operation of the session cannot tell the configuration if the number of jumps is the same or
the operation does not make as many jumps as the smaller one. -/
theorem apply_configured {s : Scene σ ω} {c : Config} {op : Operation} (hop : op.stays = true)
    (hfew : c.jumps = s.player.config.jumps ∨
      s.makesJumpsIn h (min s.player.config.jumps c.jumps) op = false) :
    (s.configured c).apply h op = (s.apply h op).configured c := by
  rcases apply_configured_cases (h := h) s c hop with ⟨hsame, -⟩ | ⟨s₁, hmakes, hs, ht⟩
  · exact hsame
  · rw [hmakes] at hfew
    rw [ht, hs, runJumps_congr (Config.jumps_pos _) c.jumps_pos hfew]

/-- Else it shows. -/
theorem not_appearAlike_apply {s : Scene σ ω} {c : Config} {op : Operation} (hop : op.stays = true)
    (hne : c.jumps ≠ s.player.config.jumps)
    (hmany : s.makesJumpsIn h (min s.player.config.jumps c.jumps) op = true) :
    ¬AppearAlike (s.apply h op) ((s.configured c).apply h op) := by
  intro halike
  rcases apply_configured_cases (h := h) s c hop with ⟨-, hnone⟩ | ⟨s₁, hmakes, hs, ht⟩
  · rw [hnone] at hmany
    cases hmany
  · rw [hmakes] at hmany
    rw [hs, ht] at halike
    exact jumps_show (Config.jumps_pos _) c.jumps_pos hne hmany halike.phase halike.calls

/-! ### Runs -/

/-- A run within the session cannot tell the configuration if the number of jumps is the same or no
operation makes as many jumps as the smaller one. -/
theorem after_configured {s : Scene σ ω} {c : Config} {ops : List Operation}
    (hops : ∀ op ∈ ops, op.stays = true)
    (hfew : c.jumps = s.player.config.jumps ∨
      s.makesJumpsDuring h (min s.player.config.jumps c.jumps) ops = false)
    {done : List Operation} (hdone : done <+: ops) :
    (s.configured c).after h done = (s.after h done).configured c := by
  induction done generalizing s ops with
  | nil => rfl
  | cons op done ih =>
      obtain ⟨rest, rfl⟩ := hdone
      obtain ⟨hop, hops⟩ := List.forall_mem_cons.mp hops
      have hconfig := config_apply h s op
      rw [List.cons_append, makesJumpsDuring, Bool.or_eq_false_iff] at hfew
      rw [after_cons, after_cons, apply_configured hop (hfew.imp_right And.left)]
      refine ih hops ?_ (List.prefix_append done rest)
      rw [hconfig]
      exact hfew.imp_right And.right

/-- A run within the session cannot tell the configuration exactly if the number of jumps is the
same or no operation makes as many jumps as the smaller one. -/
theorem appearAlike_after_configured_iff {s : Scene σ ω} {c : Config} {ops : List Operation}
    (hops : ∀ op ∈ ops, op.stays = true) :
    AppearAlikeDuring h s (s.configured c) ops ↔
      c.jumps = s.player.config.jumps ∨
        s.makesJumpsDuring h (min s.player.config.jumps c.jumps) ops = false := by
  constructor
  · intro halike
    rw [or_iff_not_imp_left]
    intro hne
    induction ops generalizing s with
    | nil => rfl
    | cons op ops ih =>
        obtain ⟨hop, hops⟩ := List.forall_mem_cons.mp hops
        have hconfig := config_apply h s op
        -- That many jumps would show, so after this operation too only the configurations differ.
        have hfew : s.makesJumpsIn h (min s.player.config.jumps c.jumps) op = false := by
          rw [Bool.eq_false_iff]
          intro hmany
          exact not_appearAlike_apply hop hne hmany halike.apply
        have hrest := ih (s := s.apply h op) hops (fun done hdone => ?_) (by rwa [hconfig])
        · rw [hconfig] at hrest
          rw [makesJumpsDuring, hfew, hrest, Bool.false_or]
        · have hdone' := halike (op :: done) (List.cons_prefix_cons.mpr ⟨rfl, hdone⟩)
          rwa [after_cons, after_cons, apply_configured hop (.inr hfew)] at hdone'
  · intro hfew done hdone
    rw [after_configured hops hfew hdone]
    exact appearAlike_configured _ c

/-! ### A new configuration -/

/-- The scene when the owner has given the player a new configuration. -/
def reconfigured (s : Scene σ ω) (c : Config) : Scene σ ω :=
  { s with player := s.player.withConfig c }

theorem reconfigured_eq_configured {s : Scene σ ω} {c : Config}
    (hparrot : c.parrot = s.player.parrot) (hlimit : c.limit = s.player.limit) :
    s.reconfigured c = s.configured c := by
  rw [reconfigured, Player.withConfig, hparrot, hlimit]
  rfl

/-- A run within the session cannot tell the new configuration exactly if it already has the two
values that are replaced at once and cannot tell the rest. -/
theorem appearAlike_after_reconfigured_iff {s : Scene σ ω} {c : Config} {ops : List Operation}
    (hops : ∀ op ∈ ops, op.stays = true) :
    AppearAlikeDuring h s (s.reconfigured c) ops ↔
      c.parrot = s.player.parrot ∧ c.limit = s.player.limit ∧
        (c.jumps = s.player.config.jumps ∨
          s.makesJumpsDuring h (min s.player.config.jumps c.jumps) ops = false) := by
  rw [← appearAlike_after_configured_iff hops]
  constructor
  · intro halike
    have hnow : AppearAlike s (s.reconfigured c) := halike [] List.nil_prefix
    refine ⟨hnow.parrot, hnow.limit, ?_⟩
    rwa [← reconfigured_eq_configured hnow.parrot hnow.limit]
  · rintro ⟨hparrot, hlimit, halike⟩
    rwa [reconfigured_eq_configured hparrot hlimit]

/-- No run changes the configuration or the loader. -/
theorem settings_after (h : Host σ ω) (s : Scene σ ω) (ops : List Operation) :
    (s.after h ops).player.config = s.player.config ∧
      (s.after h ops).player.loader = s.player.loader := by
  refine after_induct (P := fun s' => s'.player.config = s.player.config ∧
    s'.player.loader = s.player.loader) (fun {s' op} _ hs' => ?_) ⟨rfl, rfl⟩
  obtain ⟨hconfig, hloader⟩ := settings_apply h s' op
  exact ⟨hconfig.trans hs'.1, hloader.trans hs'.2⟩

/-- A player starts a dialog as a new one of its loader, configuration and log does. -/
theorem equalSince_start_fresh {s : Scene σ ω} {start : Operation} (hstart : start.isStart = true)
    (hanswer : s.answer h start = none) (more : List Operation) :
    let v : Scene σ ω := .fresh s.player.loader s.player.config s.player.log s.host
    EqualSince s v ((s.apply h start).after h more) ((v.apply h start).after h more) := by
  intro v
  exact equalSince_after (equalSince_start (s := s) (t := v) hstart rfl rfl rfl rfl hanswer) more

/-- A start that fails leaves the player with the values of its configuration. -/
theorem defaults_of_answer {s : Scene σ ω} {start : Operation}
    (hanswer : s.answer h start ≠ none) :
    (s.apply h start).player.parrot = s.player.config.parrot ∧
      (s.apply h start).player.limit = s.player.config.limit := by
  obtain ⟨e, he⟩ := Option.ne_none_iff_exists'.mp hanswer
  rw [(dismissed_of_answer he).player]
  exact ⟨rfl, rfl⟩

/-- A running session is left alone by a new configuration exactly if it is already played with what
the configuration says of the chosen texts and of the number of choices, and if the number of jumps
is the same or the session never makes as many jumps at once as the smaller number. Then only the
configurations differ. At the next start, in any case, the player is a new one of its loader, log
and new configuration. -/
theorem withConfig_unnoticed_iff (h : Host σ ω) (s : Scene σ ω) (c : Config)
    {ops : List Operation} (hops : ∀ op ∈ ops, op.stays = true) :
    let t := s.reconfigured c
    let unnoticed := AppearAlikeDuring h s t ops
    (unnoticed ↔ c.parrot = s.player.parrot ∧ c.limit = s.player.limit ∧
      (c.jumps = s.player.config.jumps ∨
        s.makesJumpsDuring h (min s.player.config.jumps c.jumps) ops = false)) ∧
    (unnoticed → ∀ done, done <+: ops → t.after h done = (s.after h done).configured c) ∧
    ∀ start, start.isStart = true →
      let u := t.after h ops
      let v : Scene σ ω := .fresh s.player.loader c u.player.log u.host
      v.answer h start = u.answer h start ∧
      (u.answer h start ≠ none → (u.apply h start).player.parrot = c.parrot ∧
        (u.apply h start).player.limit = c.limit) ∧
      (u.answer h start = none → ∀ more,
        EqualSince u v ((u.apply h start).after h more) ((v.apply h start).after h more)) := by
  intro t unnoticed
  have hiff := appearAlike_after_reconfigured_iff (h := h) (s := s) (c := c) hops
  refine ⟨hiff, fun halike done hdone => ?_, fun start hstart => ?_⟩
  · obtain ⟨hparrot, hlimit, hfew⟩ := hiff.mp halike
    have hsame : t = s.configured c := reconfigured_eq_configured hparrot hlimit
    rw [hsame]
    exact after_configured hops hfew hdone
  · intro u v
    obtain ⟨hconfig, hloader⟩ : u.player.config = c ∧ u.player.loader = s.player.loader :=
      settings_after h t ops
    refine ⟨answer_congr (s := u) (t := v) hloader.symm start, fun hanswer => ?_,
      fun hanswer more => ?_⟩
    · have hdefaults := defaults_of_answer hanswer
      rwa [hconfig] at hdefaults
    · have hv : v = .fresh u.player.loader u.player.config u.player.log u.host := by
        rw [hconfig, hloader]
      rw [hv]
      exact equalSince_start_fresh hstart hanswer more

/-- A session in which chosen texts are not said and two choices are offered is left alone by a
configuration that says so and allows two jumps, since it never makes two at once. It makes one, and
so a configuration that allows one shows. When the dialog is started again, the player is a new one
of the new configuration. -/
theorem withConfig_unnoticed_of_two_jumps :
    let source := ":s\nparrot no\nlimit 2\n1 \"x\" -> t\n:t\n!y\n-> s\n"
    let loader : Loader := fun name => .error (.notFound name)
    let s : Scene Unit Unit := Scene.apply Host.instant
      { player := .new loader, host := () } (.startSource "a" "d" "s" source)
    let c : Config := { limit := 2, parrot := false, maxJumps := 2 }
    let c' : Config := { c with maxJumps := 1 }
    let ops : List Operation := [.choose 1, .update, .goTo "t"]
    let start : Operation := .startSource "a" "d" "t" source
    Reached Host.instant s ∧ s.player.phase = .choosing ∧
      AppearAlikeDuring Host.instant s (s.reconfigured c) ops ∧
      ¬AppearAlikeDuring Host.instant s (s.reconfigured c') ops ∧
      let u := (s.reconfigured c).after Host.instant ops
      let v : Scene Unit Unit := .fresh s.player.loader c u.player.log u.host
      ∀ more, EqualSince u v ((u.apply Host.instant start).after Host.instant more)
        ((v.apply Host.instant start).after Host.instant more) := by
  intro source loader s c c' ops start
  have hops : ∀ op ∈ ops, op.stays = true := by decide
  have hstart : start.isStart = true := rfl
  obtain ⟨hiff, -, hnext⟩ := withConfig_unnoticed_iff Host.instant s c hops
  obtain ⟨hiff', -⟩ := withConfig_unnoticed_iff Host.instant s c' hops
  obtain ⟨-, -, hfresh⟩ := hnext start hstart
  refine ⟨(Reached.new loader ()).apply _, by decide +kernel, ?_, fun halike => ?_, ?_⟩
  · exact hiff.mpr (by decide +kernel)
  · exact absurd (hiff'.mp halike) (by decide +kernel)
  · exact hfresh (by decide +kernel)

/-- Each of the three values shows in a running session. If chosen texts are no longer said, the
host is not called to say the one that is picked. If one choice is offered at once, the other one is
no longer offered. If one jump is made at once, the second is left to the next update. -/
theorem withConfig_noticed :
    let source := ":s\n1 \"x\" -> t\n:t\n-> u\n:u\n1 \"y\" -> s\n2 \"z\" -> s\n"
    let s : Scene Unit Unit := Scene.apply Host.instant
      { player := .new fun name => .error (.notFound name), host := () }
      (.startSource "a" "d" "s" source)
    Reached Host.instant s ∧ s.player.phase = .choosing ∧
      ((s.reconfigured .silent).apply Host.instant (.choose 1)).calls ≠
        (s.apply Host.instant (.choose 1)).calls ∧
      ((s.reconfigured { limit := 1 }).apply Host.instant (.goTo "u")).player.choiceTexts ≠
        (s.apply Host.instant (.goTo "u")).player.choiceTexts ∧
      ((s.reconfigured { maxJumps := 1 }).apply Host.instant (.goTo "t")).player.phase ≠
        (s.apply Host.instant (.goTo "t")).player.phase ∧
      ¬∀ (c : Config) (ops : List Operation), (∀ op ∈ ops, op.stays = true) →
        AppearAlikeDuring Host.instant s (s.reconfigured c) ops := by
  intro source s
  have hcalls : ((s.reconfigured .silent).apply Host.instant (.choose 1)).calls ≠
      (s.apply Host.instant (.choose 1)).calls := by decide +kernel
  refine ⟨(Reached.new _ ()).apply _, by decide +kernel, hcalls, by decide +kernel,
    by decide +kernel, fun halike => ?_⟩
  exact hcalls (halike .silent [.choose 1] (by decide)).apply.calls

end Scene

end DialogScript
