import DialogScript.Proofs.Player.Lead
import DialogScript.Proofs.Player.Transcript
import Mathlib.Tactic.Simps.Basic

/-!
# Views of a host

A host is seen through a view if another host gives the same answers: states and handles have
images, and every call but a poll is answered alike. Then the player sees no difference, and what a
session does to a scene it does to the image of the scene. A view may leave out polls, and it may
leave out how many jumps an update makes; what depends on neither commutes with every view.

## Main definitions

* `Host.View`: a view of a host
* `Host.View.scene`: the image of a scene
* `Host.View.KeepsPolls`: the view leaves out no polls
* `Scene.stretch`: a run up to where the player stops or has jumped

## Main results

* `Host.View.stretch_scene`, `Host.View.pick_scene`, `Host.View.opening_scene`: parts of a session
  commute with every view
* `Host.View.advance_scene`: so does a whole activation if no jumps are left out
* `Host.View.after_scene`: so does a whole run if neither jumps nor polls are left out
-/

namespace DialogScript

/-- The call with another handle. -/
def Call.map {ω ν : Type} (f : ω → ν) : Call ω → Call ν
  | effect e => .effect e
  | delay d handle => .delay d (f handle)
  | poll handle ready => .poll (f handle) ready
  | code text holds => .code text holds
  | scope s site admitted => .scope s site admitted

@[simp] theorem Call.map_id {ω : Type} (c : Call ω) : c.map id = c := by cases c <;> rfl

/-- The event with another handle. -/
def Event.map {ω ν : Type} (f : ω → ν) : Event ω → Event ν
  | call c => .call (c.map f)
  | remark r => .remark r
  | judged actor dialog s accepted => .judged actor dialog s accepted
  | used actor dialog s => .used actor dialog s

@[simp] theorem Event.map_id {ω : Type} (e : Event ω) : e.map id = e := by
  cases e with
  | call c => exact congrArg Event.call c.map_id
  | remark | judged | used => rfl

/-- What follows with another handle. -/
def Flow.map {ω ν : Type} (f : ω → ν) : Flow ω → Flow ν
  | next => .next
  | wait handle => .wait (f handle)
  | jump label => .jump label

variable {σ τ ω ν : Type}

/-- A view of a host: another host that answers every call but polls alike. -/
structure Host.View (h : Host σ ω) (g : Host τ ν) where
  state : σ → τ
  handle : ω → ν
  /-- Polls are shown. -/
  polls : Bool
  /-- The number of jumps that an update may make is shown. -/
  jumps : Bool
  perform : ∀ e x, g.perform e (state x) = state (h.perform e x)
  begin : ∀ d x, g.begin d (state x) = (h.begin d x).map handle state
  holds : ∀ text x, g.holds text (state x) = (h.holds text x).map id state
  admits : ∀ scope log site x,
    g.admits scope log site (state x) = (h.admits scope log site x).map id state

/-- Runs the player up to where it stops or has jumped. The answer is the label it has come to by
the jump. -/
def Scene.stretch (h : Host σ ω) (s : Scene σ ω) : Option String × Scene σ ω :=
  match s.runLabels h s.labelsAhead with
  | (none, s) => (none, s)
  | (some name, s) =>
    match s.enter name with
    | (false, s) => (none, s)
    | (true, s) => (some name, s.inPhase .running)

theorem Scene.runJumps_succ (h : Host σ ω) (s : Scene σ ω) (n : Nat) :
    s.runJumps h (n + 1) =
      match s.stretch h with
      | (none, s) => s
      | (some name, s) => if n = 0 then s.remark (.jumpsSpent name) else s.runJumps h n := by
  rw [runJumps, stretch]
  rcases s.runLabels h s.labelsAhead with ⟨_ | name, s₁⟩
  · rfl
  · dsimp only
    rcases s₁.enter name with ⟨_ | _, s₂⟩ <;> rfl

namespace Host.View

variable {h : Host σ ω} {g : Host τ ν} (V : h.View g)

/-- The event is shown. -/
def shows : Event ω → Bool
  | .call (.poll ..) => V.polls
  | .remark (.jumpsSpent _) => V.jumps
  | _ => true

/-- The image of a configuration. -/
def config (c : Config) : Config := if V.jumps then c else { c with maxJumps := 0 }

theorem config_parrot (c : Config) : (V.config c).parrot = c.parrot := by
  unfold config
  split <;> rfl

theorem config_limit (c : Config) : (V.config c).limit = c.limit := by
  unfold config
  split <;> rfl

/-- The image of a player. -/
@[simps] def player (p : Player ω) : Player ν :=
  { p with config := V.config p.config, wait := p.wait.map V.handle }

/-- The image of a scene. -/
@[simps] def scene (s : Scene σ ω) : Scene τ ν where
  player := V.player s.player
  host := V.state s.host
  transcript := (s.transcript.filter V.shows).map (Event.map V.handle)

/-- The view leaves out no polls, and polls are answered alike. -/
structure KeepsPolls : Prop where
  polls : V.polls = true
  poll : ∀ handle x, g.poll (V.handle handle) (V.state x) = (h.poll handle x).map id V.state

/-- The calls that are shown make up the calls of the image. -/
theorem calls_scene (s : Scene σ ω) : (V.scene s).calls =
    (s.calls.filter fun c => V.shows (.call c)).map (Call.map V.handle) := by
  simp only [Scene.calls, scene_transcript, Array.toList_map, Array.toList_filter,
    List.filterMap_map, List.filterMap_filter, List.filter_filterMap, List.map_filterMap]
  refine congrArg (List.filterMap · _) (funext fun e => ?_)
  cases e with
  | call c =>
      cases hshown : V.shows (.call c) <;>
        simp [Event.map, Event.call?, Option.filter_some, hshown]
  | remark | judged | used => simp [Event.map, Event.call?]

/-- A view that leaves out nothing changes a scene in its host only. -/
theorem scene_of_full {g : Host τ ω} (V : h.View g) (hhandle : V.handle = id)
    (hpolls : V.polls = true) (hjumps : V.jumps = true) (s : Scene σ ω) :
    V.scene s = { player := s.player, host := V.state s.host, transcript := s.transcript } := by
  have hshows (e : Event ω) : V.shows e = true := by
    unfold shows
    split
    · exact hpolls
    · exact hjumps
    · rfl
  have hplayer : V.player s.player = s.player := by
    simp only [player, config, hjumps, hhandle, if_true, Option.map_id, id]
  have htranscript : (s.transcript.filter V.shows).map (Event.map V.handle) = s.transcript := by
    rw [hhandle, Array.filter_eq_self.mpr fun e _ => hshows e, funext Event.map_id]
    exact Array.map_id s.transcript
  rw [scene, hplayer, htranscript]

/-! ### Changes of the player -/

theorem note_scene (s : Scene σ ω) (e : Event ω) (he : V.shows e = true) :
    (V.scene s).note (e.map V.handle) = V.scene (s.note e) := by
  simp [scene, Scene.note, he]

/-- What is not shown leaves the image as it is. -/
theorem scene_note_of_hidden (s : Scene σ ω) {e : Event ω} (he : V.shows e = false) :
    V.scene (s.note e) = V.scene s := by
  simp [scene, Scene.note, he]

theorem remark_scene (s : Scene σ ω) (r : Remark) (hr : V.shows (.remark r) = true) :
    (V.scene s).remark r = V.scene (s.remark r) := V.note_scene s (.remark r) hr

theorem inPhase_scene (s : Scene σ ω) (phase : Phase) :
    (V.scene s).inPhase phase = V.scene (s.inPhase phase) := rfl

theorem step_scene (s : Scene σ ω) : (V.scene s).step = V.scene s.step := rfl

theorem enterAt_scene (s : Scene σ ω) (i : Nat) :
    (V.scene s).enterAt i = V.scene (s.enterAt i) := rfl

theorem finish_scene (s : Scene σ ω) : (V.scene s).finish = V.scene s.finish := by
  unfold Scene.finish
  rw [scene_player, player_phase, player_dialog]
  split
  · rfl
  · rw [V.remark_scene s _ rfl]
    rfl

theorem enter_scene (s : Scene σ ω) (name : String) :
    (V.scene s).enter name = (s.enter name).map id V.scene := by
  unfold Scene.enter
  rw [scene_player, player_script, player_dialog]
  split
  · rw [V.remark_scene s _ rfl, enterAt_scene]
    rfl
  · rw [V.remark_scene s _ rfl, finish_scene]
    rfl

theorem offer_scene (s : Scene σ ω) (number : Int32) :
    (V.scene s).offer number = V.scene (s.offer number) := by
  have hoffered : (V.player s.player).offered = s.player.offered := rfl
  unfold Scene.offer
  dsimp only
  rw [scene_player, hoffered, player_slots, player_limit, player_dialog, player_cursor]
  split
  · split
    · exact V.remark_scene s _ rfl
    · split
      · exact V.remark_scene s _ rfl
      · rfl
  · exact V.remark_scene s _ rfl

/-! ### Calls of the host -/

/-- A call that is shown comes into the image. -/
theorem call_scene (s : Scene σ ω) (host : σ) (c : Call ω) (hc : V.shows (.call c) = true) :
    Scene.note { V.scene s with host := V.state host } (.call (c.map V.handle)) =
      V.scene (Scene.note { s with host } (.call c)) :=
  V.note_scene { s with host } (.call c) hc

theorem perform_scene (s : Scene σ ω) (e : Effect) :
    (V.scene s).perform g e = V.scene (s.perform h e) := by
  rw [Scene.perform, Scene.perform, scene_host, V.perform]
  exact V.call_scene s _ (.effect e) rfl

theorem begin_scene (s : Scene σ ω) (d : Delay) :
    (V.scene s).begin g d = (s.begin h d).map V.handle V.scene := by
  rw [Scene.begin, Scene.begin, scene_host, V.begin]
  rcases h.begin d s.host with ⟨handle, host⟩
  exact congrArg (V.handle handle, ·) (V.call_scene s host (.delay d handle) rfl)

theorem ask_scene (s : Scene σ ω) (c : Condition) :
    (V.scene s).ask g c = (s.ask h c).map id V.scene := by
  unfold Scene.ask
  split
  · rename_i text _
    rw [scene_host, V.holds]
    rcases h.holds text s.host with ⟨holds, host⟩
    exact congrArg (holds, ·) (V.call_scene s host (.code text holds) rfl)
  · -- the site and the log are read off the player, so its image is rewritten under a function
    rename_i scope _
    let site := s.player.site c.line
    let answered (answer : Bool × τ) : Bool × Scene τ ν :=
      (answer.1,
        Scene.note { V.scene s with host := answer.2 } (.call (.scope scope site answer.1)))
    have hadmits := congrArg answered (V.admits scope s.player.log site s.host)
    exact hadmits.trans (congrArg (_, ·) (V.call_scene s _ (.scope scope site _) rfl))

theorem askAll_scene (s : Scene σ ω) (cs : List Condition) :
    (V.scene s).askAll g cs = (s.askAll h cs).map id V.scene := by
  induction cs generalizing s with
  | nil => rfl
  | cons c cs ih =>
      rw [Scene.askAll, Scene.askAll, ask_scene]
      rcases s.ask h c with ⟨_ | _, s₁⟩
      · rfl
      · exact ih s₁

/-! ### Statements -/

theorem judge_scene (s : Scene σ ω) (st : Statement) :
    (V.scene s).judge g st = (s.judge h st).map id V.scene := by
  rw [Scene.judge, Scene.judge, askAll_scene]
  rcases s.askAll h st.conditions with ⟨accepted, s₁⟩
  exact congrArg (accepted, ·) (V.note_scene (s₁.log Scope.onShow st) (.judged _ _ st accepted) rfl)

theorem follow_scene (s : Scene σ ω) (i : Instruction) :
    (V.scene s).follow g i = (s.follow h i).map (Flow.map V.handle) V.scene := by
  cases i with
  | choice => rfl
  | say | pause | waitFor | waitWhile =>
      exact congrArg Scene.follow.waiting (V.begin_scene s _)
  | goto label => exact congrArg (Flow.jump label, ·) (V.perform_scene s _)
  | code | dialog | shutUp | allowObjects =>
      exact congrArg (Flow.next, ·) (V.perform_scene s _)
  | parrot active =>
      let s' := { s with player := { s.player with parrot := active } }
      exact congrArg (Flow.next, ·) (V.perform_scene s' _)
  | override label =>
      let s' := { s with player := { s.player with override := label } }
      exact congrArg (Flow.next, ·) (V.perform_scene s' _)
  | limit max =>
      let s' := { s with player := { s.player with limit := max.toInt.toNat } }
      exact congrArg (Flow.next, ·) (V.perform_scene s' _)

theorem use_scene (s : Scene σ ω) (st : Statement) :
    (V.scene s).use st = V.scene (s.use st) :=
  V.note_scene (s.log (!·.onShow) st) (.used _ _ st) rfl

theorem run_scene (s : Scene σ ω) (st : Statement) :
    (V.scene s).run g st = (s.run h st).map (Flow.map V.handle) V.scene := by
  let r : Remark := .ran s.player.dialog st.instruction.name s.player.currentLabel?
  have hremark : (V.scene s).remark r = V.scene (s.remark r) := V.remark_scene s r rfl
  change (((V.scene s).remark r).follow g st.instruction).map id (Scene.use · st) =
    (((s.remark r).follow h st.instruction).map id (Scene.use · st)).map _ V.scene
  rw [hremark, follow_scene]
  exact congrArg (_, ·) (V.use_scene _ st)

theorem runStatements_scene (s : Scene σ ω) (sts : List Statement) :
    (V.scene s).runStatements g sts = (s.runStatements h sts).map id V.scene := by
  have hhas (s : Scene σ ω) : (V.scene s).player.hasChoices = s.player.hasChoices := rfl
  induction sts generalizing s with
  | nil =>
      rw [Scene.runStatements, Scene.runStatements, hhas]
      split <;> rfl
  | cons st sts ih =>
      rw [Scene.runStatements, Scene.runStatements, judge_scene]
      rcases s.judge h st with ⟨_ | _, s₁⟩
      · exact ih s₁.step
      · dsimp only [Prod.map, id]
        cases st.instruction with
        | choice number text target =>
            dsimp only
            rw [offer_scene, step_scene]
            exact ih _
        | _ =>
            dsimp only
            rw [hhas]
            split
            · rfl
            · rw [run_scene]
              rcases s₁.run h st with ⟨_ | handle | name, s₂⟩
              · exact ih s₂.step
              · rfl
              · rfl

theorem runLabels_scene (s : Scene σ ω) (ls : List Label) :
    (V.scene s).runLabels g ls = (s.runLabels h ls).map id V.scene := by
  induction ls generalizing s with
  | nil => exact congrArg (none, ·) (V.finish_scene s)
  | cons l ls ih =>
      have hcursor : (V.scene s).player.cursor = s.player.cursor := rfl
      rw [Scene.runLabels, Scene.runLabels, hcursor, runStatements_scene]
      rcases s.runStatements h (l.statements.drop s.player.cursor) with ⟨_ | _ | name, s₁⟩
      · rfl
      · dsimp only [Prod.map, id]
        split
        · exact congrArg (none, ·) (V.finish_scene s₁)
        · exact ih ((s₁.enterAt (s₁.player.label.elim 0 (· + 1))).inPhase .running)
      · rfl

/-! ### Activations -/

theorem stretch_scene (s : Scene σ ω) :
    (V.scene s).stretch g = (s.stretch h).map id V.scene := by
  have hahead : (V.scene s).labelsAhead = s.labelsAhead := rfl
  rw [Scene.stretch, Scene.stretch, hahead, runLabels_scene]
  rcases s.runLabels h s.labelsAhead with ⟨_ | name, s₁⟩
  · rfl
  · dsimp only [Prod.map, id]
    rw [enter_scene]
    rcases s₁.enter name with ⟨_ | _, s₂⟩ <;> rfl

variable {V}

theorem runJumps_scene (hV : V.jumps = true) (n : Nat) (s : Scene σ ω) :
    (V.scene s).runJumps g n = V.scene (s.runJumps h n) := by
  induction n generalizing s with
  | zero => rfl
  | succ n ih =>
      rw [Scene.runJumps_succ, Scene.runJumps_succ, stretch_scene]
      rcases s.stretch h with ⟨_ | name, s₁⟩
      · rfl
      · dsimp only [Prod.map, id]
        split
        · exact V.remark_scene s₁ _ hV
        · exact ih s₁

theorem advance_scene (hV : V.jumps = true) (s : Scene σ ω) :
    (V.scene s).advance g = V.scene (s.advance h) := by
  have hjumps : (V.scene s).player.config.maxJumps = s.player.config.maxJumps :=
    congrArg Config.maxJumps (if_pos hV)
  rw [Scene.advance, hjumps, inPhase_scene]
  exact runJumps_scene hV _ _

theorem proceed_scene (hV : V.jumps = true) (lead : Bool × Scene σ ω) :
    Scene.proceed g (lead.map id V.scene) = V.scene (Scene.proceed h lead) := by
  rcases lead with ⟨_ | _, s⟩
  · rfl
  · exact advance_scene hV s

variable (V)

/-! ### Leads -/

theorem scene_fresh (loader : Loader) (config : Config) (log : Log) (host : σ) :
    V.scene (.fresh loader config log host) =
      .fresh loader (V.config config) log (V.state host) := by
  simp [Scene.fresh, Player.withLog, Player.withConfig, Player.new, scene, player, config_parrot,
    config_limit]

theorem reset_scene (s : Scene σ ω) : (V.scene s).reset = V.scene s.reset := by
  unfold Scene.reset
  rw [finish_scene]
  -- how the scene has come about does not matter, and it is costly to unfold
  generalize s.finish = s'
  have hparrot : (V.scene s').player.config.parrot = s'.player.config.parrot := V.config_parrot _
  have hlimit : (V.scene s').player.config.limit = s'.player.config.limit := V.config_limit _
  dsimp only
  rw [hparrot, hlimit]
  rfl

theorem reading_scene (s : Scene σ ω) (source : String) :
    (V.scene s).reading source = V.scene (s.reading source) := by
  have hfold (notices : List Notice) (s : Scene σ ω) :
      notices.foldl (fun s n => s.remark (.read n)) (V.scene s) =
        V.scene (notices.foldl (fun s n => s.remark (.read n)) s) := by
    induction notices generalizing s with
    | nil => rfl
    | cons n ns ih => rw [List.foldl_cons, V.remark_scene s _ rfl, ih, List.foldl_cons]
  rw [Scene.reading, reset_scene, hfold, Scene.reading]

theorem opened_scene (s : Scene σ ω) (actor dialog label source : String) (script : Script) :
    (V.scene s).opened actor dialog label source script =
      V.scene (s.opened actor dialog label source script) := by
  unfold Scene.opened
  rw [reading_scene, V.remark_scene _ _ rfl]
  generalize (s.reading source).remark _ = s'
  rfl

theorem opening_scene (s : Scene σ ω) (actor dialog label source : String) :
    (V.scene s).opening actor dialog label source =
      (s.opening actor dialog label source).map id V.scene := by
  unfold Scene.opening
  split
  · rw [reading_scene]
    rfl
  · rw [opened_scene, enter_scene]

theorem echo_scene (s : Scene σ ω) (text target : String) :
    (V.scene s).echo g text target = V.scene (s.echo h text target) := by
  let s' := { s with player := { s.player with phase := .echoing, destination := target } }
  have hbegin := V.begin_scene s' (.say s.player.actor text)
  exact congrArg (fun begun : ν × Scene τ ν =>
    { begun.2 with player := { begun.2.player with wait := some begun.1 } }) hbegin

theorem pick_scene (s : Scene σ ω) (choice : Nat) :
    (V.scene s).pick g choice = (s.pick h choice).map id V.scene := by
  have hpicked : (V.scene s).player.picked? choice = s.player.picked? choice := rfl
  unfold Scene.pick
  rw [hpicked, scene_player, player_phase, player_parrot]
  split
  · exact congrArg (false, ·) (V.remark_scene s _ rfl)
  · split
    · exact congrArg (false, ·) (V.remark_scene s _ rfl)
    · split
      · rfl
      · rw [use_scene]
        split
        · exact congrArg (false, ·) (V.echo_scene _ _ _)
        · exact V.enter_scene _ _

theorem goOn_scene (s : Scene σ ω) : (V.scene s).goOn = s.goOn.map id V.scene := by
  unfold Scene.goOn
  rw [scene_player, player_phase]
  split
  · exact V.enter_scene { s with player := { s.player with destination := "" } } _
  · rfl

/-! ### Runs -/

variable {V}

theorem poll_scene (hV : V.KeepsPolls) (s : Scene σ ω) (handle : ω) :
    (V.scene s).poll g (V.handle handle) = (s.poll h handle).map id V.scene := by
  rw [Scene.poll, Scene.poll, scene_host, hV.poll]
  rcases h.poll handle s.host with ⟨ready, host⟩
  exact congrArg (ready, ·) (V.call_scene s host (.poll handle ready) hV.polls)

theorem pollWait_scene (hV : V.KeepsPolls) (s : Scene σ ω) :
    (V.scene s).pollWait g = (s.pollWait h).map id V.scene := by
  unfold Scene.pollWait
  rw [scene_player, player_wait]
  cases s.player.wait with
  | none => rfl
  | some handle =>
      dsimp only [Option.map]
      rw [poll_scene hV]
      rcases s.poll h handle with ⟨_ | _, s₁⟩ <;> rfl

theorem resume_scene (hV : V.KeepsPolls) (s : Scene σ ω) :
    (V.scene s).resume g = (s.resume h).map id V.scene := by
  rw [Scene.resume, Scene.resume, pollWait_scene hV]
  rcases s.pollWait h with ⟨_ | _, s₁⟩
  · rfl
  · exact V.goOn_scene s₁

theorem awaken_scene (hV : V.KeepsPolls) (s : Scene σ ω) :
    (V.scene s).awaken g = (s.awaken h).map id V.scene := by
  have hresume := resume_scene hV s
  unfold Scene.awaken
  rw [scene_player, player_phase]
  cases s.player.phase with
  | idle | choosing | entered | running => rfl
  | waiting | echoing => exact hresume

theorem lead_scene (hV : V.KeepsPolls) (s : Scene σ ω) (op : Operation) :
    (V.scene s).lead g op = (s.lead h op).map id V.scene := by
  cases op with
  | start actor dialog label =>
      have hloader : (V.scene s).player.loader = s.player.loader := rfl
      rw [Scene.lead, Scene.lead, hloader]
      split
      · exact congrArg (false, ·) (V.reset_scene s)
      · exact V.opening_scene s actor dialog label _
  | startSource actor dialog label source => exact V.opening_scene s actor dialog label source
  | update => exact awaken_scene hV s
  | choose choice => exact V.pick_scene s choice
  | goTo label => exact V.enter_scene s label
  | finish => exact congrArg (false, ·) (V.finish_scene s)
  | setLog log => rfl

theorem apply_scene (hjumps : V.jumps = true) (hpolls : V.KeepsPolls) (s : Scene σ ω)
    (op : Operation) : (V.scene s).apply g op = V.scene (s.apply h op) := by
  rw [Scene.apply_eq_proceed, Scene.apply_eq_proceed, lead_scene hpolls, proceed_scene hjumps]

theorem after_scene (hjumps : V.jumps = true) (hpolls : V.KeepsPolls) (s : Scene σ ω)
    (ops : List Operation) : (V.scene s).after g ops = V.scene (s.after h ops) := by
  induction ops generalizing s with
  | nil => rfl
  | cons op ops ih => rw [Scene.after_cons, apply_scene hjumps hpolls, ih, Scene.after_cons]

/-- A run that is seen in full changes in its host only. -/
theorem after_of_full {g : Host τ ω} {V : h.View g} (hhandle : V.handle = id)
    (hjumps : V.jumps = true) (hpolls : V.KeepsPolls) (s : Scene σ ω) (ops : List Operation) :
    Scene.after g { player := s.player, host := V.state s.host, transcript := s.transcript } ops =
      { player := (s.after h ops).player, host := V.state (s.after h ops).host,
        transcript := (s.after h ops).transcript } := by
  rw [← scene_of_full V hhandle hpolls.polls hjumps, after_scene hjumps hpolls,
    scene_of_full V hhandle hpolls.polls hjumps]

end Host.View

end DialogScript
