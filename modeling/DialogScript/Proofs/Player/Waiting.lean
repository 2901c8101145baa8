import DialogScript.Proofs.Player.Exchange
import DialogScript.Proofs.Player.Playthrough

/-!
# Waiting changes nothing

A host lets the player wait by answering polls that a wait is not over. Two hosts that answer
everything else alike lead the player along one course, however long they let it wait.

A host is seen by its answers to demands, that is to calls other than polls. As far as polls do not
change them, the answers of a host are themselves the states of a host, and each host is seen
through a view that leaves out polls. In this view a step with a pending wait changes nothing, and
every other step is the step that waits for nothing.

## Main definitions

* `Demand`, `Host.answers`: what a host is asked but for polls, and what it answers
* `Host.PollsQuietly`: polls change no answers
* `Host.Ends`, `Host.EndsWaits`: a wait is over after some polls, and every wait is
* `Host.heard`: a host seen by its answers
* `Scene.deeds`: the calls but for polls

## Main results

* `Playthrough.heard_step_of_pending`, `Playthrough.heard_step`: what is seen of a step
* `Playthrough.exists_run_heard`: a player whose waits are over some time comes to the next step
* `Playthrough.deeds_of_waits`: waiting changes nothing
-/

namespace DialogScript

/-- What a host is asked but for polls. -/
inductive Demand
  | effect (e : Effect)
  | delay (d : Delay)
  | code (text : String)
  | scope (s : Scope) (log : Log) (site : Site)

/-- The player with another handle of what it waits for. -/
def Player.map {ω ν : Type} (f : ω → ν) (p : Player ω) : Player ν :=
  { p with wait := p.wait.map f }

variable {σ τ ω ν : Type}

namespace Host

/-- What a host answers to demands, one after the other. Only conditions have answers. -/
def answers (h : Host σ ω) : List Demand → σ → List Bool
  | [], _ => []
  | .effect e :: demands, x => h.answers demands (h.perform e x)
  | .delay d :: demands, x => h.answers demands (h.begin d x).2
  | .code text :: demands, x => (h.holds text x).1 :: h.answers demands (h.holds text x).2
  | .scope s log site :: demands, x =>
    (h.admits s log site x).1 :: h.answers demands (h.admits s log site x).2

/-- Polls do not change what a host answers. -/
def PollsQuietly (h : Host σ ω) : Prop :=
  ∀ handle x demands, h.answers demands (h.poll handle x).2 = h.answers demands x

/-- What a handle stands for is over after some polls. -/
inductive Ends (h : Host σ ω) (handle : ω) : σ → Prop
  | ready {x : σ} (hpoll : (h.poll handle x).1 = true) : Ends h handle x
  | pending {x : σ} (hends : Ends h handle (h.poll handle x).2) : Ends h handle x

/-- Whatever is begun is over after some polls. -/
def EndsWaits (h : Host σ ω) : Prop := ∀ d x, h.Ends (h.begin d x).1 (h.begin d x).2

/-- The host that is made up of answers. -/
def oracle : Host (List Demand → List Bool) Unit where
  perform e answers := fun demands => answers (.effect e :: demands)
  begin d answers := ((), fun demands => answers (.delay d :: demands))
  poll _ answers := (true, answers)
  holds text answers :=
    ((answers [.code text]).headD false, fun demands => (answers (.code text :: demands)).tail)
  admits s log site answers :=
    ((answers [.scope s log site]).headD false,
      fun demands => (answers (.scope s log site :: demands)).tail)

/-- A host seen by its answers. -/
def heard (h : Host σ ω) : h.View oracle where
  state x demands := h.answers demands x
  handle _ := ()
  polls := false
  jumps := true
  perform _ _ := rfl
  begin _ _ := rfl
  holds _ _ := rfl
  admits _ _ _ _ := rfl

theorem Ends.of_pending {h : Host σ ω} {handle : ω} {x : σ} (hends : h.Ends handle x)
    (hpoll : (h.poll handle x).1 = false) : h.Ends handle (h.poll handle x).2 := by
  cases hends with
  | ready hready => simp [hready] at hpoll
  | pending hends => exact hends

theorem PollsQuietly.heard_poll {h : Host σ ω} (hquiet : h.PollsQuietly) (handle : ω) (x : σ) :
    h.heard.state (h.poll handle x).2 = h.heard.state x := funext (hquiet handle x)

end Host

namespace Scene

/-- The calls but for polls, whatever their handles. -/
def deeds (s : Scene σ ω) : List (Call Unit) :=
  (s.calls.filter (!·.isPoll)).map (Call.map fun _ => ())

/-- The player lets go what it waits for. -/
def letGo (s : Scene σ ω) : Scene σ ω := { s with player := { s.player with wait := none } }

/-- The lead of an update that waits for nothing. -/
def rouse (s : Scene σ ω) : Bool × Scene σ ω :=
  match s.player.phase with
  | .idle | .choosing => (false, s)
  | .entered | .running => (true, s)
  | .waiting | .echoing => s.letGo.goOn

/-- The scene after an operation that waits for nothing. -/
def applyRoused (h : Host σ ω) (s : Scene σ ω) : Operation → Scene σ ω
  | .update => proceed h s.rouse
  | op => s.apply h op

/-- What the player waits for is polled and is not over. -/
def Pending (h : Host σ ω) (s : Scene σ ω) : Prop := s.Waits ∧ (s.pollWait h).1 = false

/-- What the player waits for is over after some polls. -/
def Ending (h : Host σ ω) (s : Scene σ ω) : Prop :=
  s.Waits → ∀ handle, s.player.wait = some handle → h.Ends handle s.host

variable {h : Host σ ω}

/-! ### What is seen of an update -/

theorem heard_poll (hquiet : h.PollsQuietly) (s : Scene σ ω) (handle : ω) :
    h.heard.scene (s.poll h handle).2 = h.heard.scene s := by
  let s' := { s with host := (h.poll handle s.host).2 }
  have hhost : h.heard.scene s' = h.heard.scene s :=
    congrArg (fun host => { h.heard.scene s with host }) (hquiet.heard_poll handle s.host)
  exact (h.heard.scene_note_of_hidden s' rfl).trans hhost

/-- Polls are not seen. Of what is over it is seen that the player lets it go. -/
theorem heard_pollWait (hquiet : h.PollsQuietly) {s s' : Scene σ ω} {ready : Bool}
    (hpoll : s.pollWait h = (ready, s')) :
    h.heard.scene s' = if ready then (h.heard.scene s).letGo else h.heard.scene s := by
  rw [pollWait] at hpoll
  split at hpoll
  · rename_i hwait
    obtain ⟨rfl, rfl⟩ := Prod.mk.inj hpoll
    have hidle : s.letGo = s := by rw [letGo, ← hwait]
    exact congrArg h.heard.scene hidle.symm
  · rename_i handle hwait
    have hseen := heard_poll hquiet s handle
    split at hpoll <;> rename_i hanswer <;> rw [hanswer] at hseen <;>
      obtain ⟨rfl, rfl⟩ := Prod.mk.inj hpoll
    · exact congrArg letGo hseen
    · exact hseen

theorem update_of_pending {s : Scene σ ω} (hs : s.Pending h) : s.update h = (s.pollWait h).2 := by
  obtain ⟨hphase, hpoll⟩ := hs
  rw [update]
  rcases hwait : s.pollWait h with ⟨ready, s'⟩
  obtain rfl : ready = false := by simpa [hwait] using hpoll
  rcases hphase with hphase | hphase <;> simp [hphase]

/-- A pending wait has a handle, and the host answers that it is not over. -/
theorem Pending.polled {s : Scene σ ω} (hs : s.Pending h) :
    ∃ handle, s.player.wait = some handle ∧ (h.poll handle s.host).1 = false ∧
      (s.pollWait h).2.player = s.player ∧
      (s.pollWait h).2.host = (h.poll handle s.host).2 := by
  obtain ⟨-, hanswer⟩ := hs
  rcases hpoll : s.pollWait h with ⟨ready, s'⟩
  obtain rfl : ready = false := (congrArg Prod.fst hpoll).symm.trans hanswer
  cases hwait : s.player.wait with
  | none => simp [pollWait, hwait] at hpoll
  | some handle =>
      have hhost := host_pollWait hpoll hwait
      exact ⟨handle, rfl, congrArg Prod.fst hhost, player_pollWait hpoll,
        (congrArg Prod.snd hhost).symm⟩

/-- What is seen of an update without a pending wait is an update that waits for nothing. -/
theorem heard_update (hquiet : h.PollsQuietly) {s : Scene σ ω} (hs : ¬s.Pending h) :
    h.heard.scene (s.update h) = proceed Host.oracle (h.heard.scene s).rouse := by
  have hlead : (s.awaken h).map id h.heard.scene = (h.heard.scene s).rouse := by
    have hover (hphase : s.Waits) :
        (s.resume h).map id h.heard.scene = (h.heard.scene s).letGo.goOn := by
      rw [resume]
      rcases hpoll : s.pollWait h with ⟨_ | _, s'⟩
      · exact absurd ⟨hphase, congrArg Prod.fst hpoll⟩ hs
      · have hseen := heard_pollWait hquiet hpoll
        exact (h.heard.goOn_scene s').symm.trans (congrArg goOn hseen)
    rw [awaken, rouse, Host.View.scene_player, Host.View.player_phase]
    cases hphase : s.player.phase with
    | idle | choosing | entered | running => rfl
    | waiting => exact hover (.inl hphase)
    | echoing => exact hover (.inr hphase)
  rw [update_eq_proceed, ← Host.View.proceed_scene rfl, hlead]

/-! ### Waits that end -/

theorem ending_of_not_waits {s : Scene σ ω} (hs : ¬s.Waits) : s.Ending h :=
  fun hwaits => absurd hwaits hs

/-- What the player waits for has just been begun, so it is over after some polls. -/
theorem ending_of_begins (hends : h.EndsWaits) {s s' : Scene σ ω} (hbegins : Begins h s s') :
    s'.Ending h := by
  obtain ⟨calls, -, hspeech, hbegun⟩ := hbegins
  intro hwaits handle hwait
  obtain ⟨handle', hwait', before, d, rfl⟩ := hbegun hwaits
  obtain rfl := Option.some.inj (hwait.symm.trans hwait')
  obtain ⟨x, -, hlast⟩ := Host.exchange_append_iff.mp hspeech.exchange
  have hbegin : h.begin d x = (handle, s'.host) := Host.exchange_singleton_iff.mp hlast
  have hover := hends d x
  rwa [hbegin] at hover

theorem ending_of_saying (hends : h.EndsWaits) {s s' : Scene σ ω} {op : Operation}
    (hs : s.Ending h) (hsaying : s.Saying h op s') : s'.Ending h := by
  cases hsaying with
  | rests _ hsilent hphase hwait =>
      intro hwaits handle hwait'
      rw [hsilent.2]
      exact hs ((waits_congr hphase).mp hwaits) handle (hwait.symm.trans hwait')
  | begins hbegins | ended _ _ _ _ hbegins => exact ending_of_begins hends hbegins
  | @pending handle _ hwaits hwait _ hhost hplayer =>
      intro _ handle' hwait'
      rw [hplayer, hwait] at hwait'
      obtain rfl := Option.some.inj hwait'
      have hover := (hs hwaits handle hwait).of_pending (congrArg Prod.fst hhost)
      rwa [hhost] at hover

/-- After every operation, what the player waits for is over after some polls. -/
theorem ending_apply (hends : h.EndsWaits) {s : Scene σ ω} (hs : s.Ending h) (op : Operation) :
    (s.apply h op).Ending h := ending_of_saying hends hs (saying_apply h s op)

end Scene

namespace Playthrough

variable {h : Host σ ω}

/-- What is heard of a playthrough. -/
abbrev heard (h : Host σ ω) : Playthrough σ ω → Playthrough (List Demand → List Bool) Unit :=
  h.heard.playthrough

/-- Does what is due and waits for nothing. -/
def hasten (h : Host σ ω) : Playthrough σ ω → Playthrough σ ω := stepBy (Scene.applyRoused h)

/-! ### What is heard of a step -/

theorem due?_of_pending {p : Playthrough σ ω} (hp : p.scene.Pending h) :
    p.due? = some (.update, p.choices) := by
  rcases hp.1 with hphase | hphase <;> simp [due?, hphase]

theorem step_of_pending {p : Playthrough σ ω} (hp : p.scene.Pending h) :
    p.step h = ⟨(p.scene.pollWait h).2, p.choices⟩ := by
  rw [step, stepBy, due?_of_pending hp]
  exact congrArg (Playthrough.mk · p.choices) (Scene.update_of_pending hp)

/-- Nothing is heard of a step with a pending wait. -/
theorem heard_step_of_pending (hquiet : h.PollsQuietly) {p : Playthrough σ ω}
    (hp : p.scene.Pending h) : (p.step h).heard h = p.heard h := by
  rw [step_of_pending hp]
  rcases hpoll : p.scene.pollWait h with ⟨ready, s⟩
  obtain rfl : ready = false := (congrArg Prod.fst hpoll).symm.trans hp.2
  exact congrArg (Playthrough.mk · p.choices) (Scene.heard_pollWait hquiet hpoll)

/-- Every other step is heard as a step that waits for nothing. -/
theorem heard_step (hquiet : h.PollsQuietly) {p : Playthrough σ ω} (hp : ¬p.scene.Pending h) :
    (p.step h).heard h = (p.heard h).hasten Host.oracle := by
  rw [step, hasten, stepBy, stepBy, Host.View.due?_playthrough]
  rcases hdue : p.due? with _ | ⟨op, choices⟩
  · rfl
  · refine congrArg (Playthrough.mk · choices) ?_
    rcases of_due? hdue with rfl | ⟨choice, rfl⟩
    · exact Scene.heard_update hquiet hp
    · change h.heard.scene (p.scene.choose h choice) =
        (h.heard.scene p.scene).choose Host.oracle choice
      rw [Scene.choose_eq_proceed, Scene.choose_eq_proceed, Host.View.pick_scene,
        Host.View.proceed_scene rfl]

/-! ### Waits that end -/

theorem ending_step (hends : h.EndsWaits) {p : Playthrough σ ω} (hp : p.scene.Ending h) :
    (p.step h).scene.Ending h := by
  rw [step, stepBy]
  split
  · exact hp
  · exact Scene.ending_apply hends hp _

/-- A player that waits for what is over after some polls comes to the next step. -/
theorem exists_run_of_ends (hquiet : h.PollsQuietly) (hends : h.EndsWaits) {handle : ω} {x : σ}
    (hover : h.Ends handle x) {p : Playthrough σ ω} (hhost : p.scene.host = x)
    (hwait : p.scene.player.wait = some handle) (hp : p.scene.Ending h) :
    ∃ m, (p.run h m).heard h = (p.heard h).hasten Host.oracle ∧ (p.run h m).scene.Ending h := by
  -- the induction is on the polls still to come; a pending one is a step that is not heard
  induction hover generalizing p with
  | ready hready =>
      refine ⟨1, heard_step hquiet fun hpending => ?_, ending_step hends hp⟩
      obtain ⟨handle', hwait', hanswer, -, -⟩ := hpending.polled
      obtain rfl := Option.some.inj (hwait.symm.trans hwait')
      simp [hhost, hready] at hanswer
  | pending _ ih =>
      by_cases hpending : p.scene.Pending h
      · obtain ⟨handle', hwait', -, hplayer, hhost'⟩ := hpending.polled
        obtain rfl := Option.some.inj (hwait.symm.trans hwait')
        have hstep := step_of_pending hpending
        obtain ⟨m, hm, hending⟩ := ih (p := p.step h) (by rw [hstep, hhost', hhost])
          (by rw [hstep, hplayer, hwait]) (ending_step hends hp)
        rw [heard_step_of_pending hquiet hpending, run, ← Function.iterate_succ_apply] at hm
        exact ⟨m + 1, hm, hending⟩
      · exact ⟨1, heard_step hquiet hpending, ending_step hends hp⟩

/-- A player whose waits are over some time comes to the next step. -/
theorem exists_run_heard (hquiet : h.PollsQuietly) (hends : h.EndsWaits) {p : Playthrough σ ω}
    (hp : p.scene.Ending h) :
    ∃ m, (p.run h m).heard h = (p.heard h).hasten Host.oracle ∧ (p.run h m).scene.Ending h := by
  by_cases hpending : p.scene.Pending h
  · obtain ⟨handle, hwait, -, -, -⟩ := hpending.polled
    exact exists_run_of_ends hquiet hends (hp hpending.1 handle hwait) rfl hwait hp
  · exact ⟨1, heard_step hquiet hpending, ending_step hends hp⟩

/-- A playthrough with another host is heard at every place where the first is heard, if its waits
are over some time. -/
theorem exists_heard_eq {h₁ : Host σ ω} {h₂ : Host τ ν} (hquiet₁ : h₁.PollsQuietly)
    (hquiet₂ : h₂.PollsQuietly) (hends : h₂.EndsWaits) {p₁ : Playthrough σ ω}
    {p₂ : Playthrough τ ν} (hstart : p₁.heard h₁ = p₂.heard h₂) (hp : p₂.scene.Ending h₂)
    (n : Nat) :
    ∃ m, (p₁.run h₁ n).heard h₁ = (p₂.run h₂ m).heard h₂ ∧ (p₂.run h₂ m).scene.Ending h₂ := by
  induction n with
  | zero => exact ⟨0, hstart, hp⟩
  | succ n ih =>
      obtain ⟨m, hm, hending⟩ := ih
      rw [run_succ]
      by_cases hpending : (p₁.run h₁ n).scene.Pending h₁
      · exact ⟨m, (heard_step_of_pending hquiet₁ hpending).trans hm, hending⟩
      · obtain ⟨k, hk, hending'⟩ := exists_run_heard hquiet₂ hends hending
        rw [← run_add] at hk hending'
        refine ⟨k + m, ?_, hending'⟩
        rw [heard_step hquiet₁ hpending, hm, hk]

/-- Two hosts that give the same answers are heard alike when a dialog is started. -/
theorem heard_ofStart (h : Host σ ω) (loader : Loader) (config : Config) (log : Log) (x : σ)
    (actor dialog label source : String) (choices : List Nat) :
    (ofStart h (.fresh loader config log x) actor dialog label source choices).heard h =
      ofStart Host.oracle (.fresh loader config log (h.heard.state x)) actor dialog label source
        choices := by
  rw [ofStart, ofStart, Scene.apply_eq_proceed, Scene.apply_eq_proceed]
  refine congrArg (Playthrough.mk · choices) ?_
  have hlead := h.heard.opening_scene (.fresh loader config log x) actor dialog label source
  rw [Host.View.scene_fresh] at hlead
  exact (Host.View.proceed_scene rfl _).symm.trans (congrArg _ hlead.symm)

theorem heard_player (h : Host σ ω) (p : Player ω) :
    h.heard.player p = p.map fun _ => () := rfl

theorem heard_calls (h : Host σ ω) (s : Scene σ ω) : (h.heard.scene s).calls = s.deeds := by
  have hshows : (fun c => h.heard.shows (.call c)) = (!·.isPoll) := by
    funext c
    cases c <;> rfl
  rw [Host.View.calls_scene, hshows]
  rfl

/-- Waiting changes nothing. Let two hosts give the same answers, and let polls change none of them.
If the waits of the second are over after some polls, then wherever the first leads a player in a
playthrough, the second leads it too, with the same calls but for polls, the same choices left and
the same player, whatever the handles; and where the first has nothing due, so has the second. -/
theorem deeds_of_waits {h₁ : Host σ ω} {h₂ : Host τ ν} (hquiet₁ : h₁.PollsQuietly)
    (hquiet₂ : h₂.PollsQuietly) (hends : h₂.EndsWaits) {x₁ : σ} {x₂ : τ}
    (hanswers : ∀ demands, h₁.answers demands x₁ = h₂.answers demands x₂) (loader : Loader)
    (config : Config) (log : Log) (actor dialog label source : String) (choices : List Nat)
    (n : Nat) :
    let first := (ofStart h₁ (.fresh loader config log x₁) actor dialog label source choices).run
      h₁ n
    let second := fun m =>
      (ofStart h₂ (.fresh loader config log x₂) actor dialog label source choices).run h₂ m
    ∃ m, (second m).scene.deeds = first.scene.deeds ∧ (second m).choices = first.choices ∧
      ((second m).scene.player.map fun _ => ()) = (first.scene.player.map fun _ => ()) ∧
      ((second m).due? = none ↔ first.due? = none) := by
  intro first second
  have hstart : (ofStart h₁ (.fresh loader config log x₁) actor dialog label source choices).heard
      h₁ = (ofStart h₂ (.fresh loader config log x₂) actor dialog label source choices).heard
      h₂ := by
    have hstate : h₁.heard.state x₁ = h₂.heard.state x₂ := funext hanswers
    rw [heard_ofStart, heard_ofStart, hstate]
  have hending : (ofStart h₂ (.fresh loader config log x₂) actor dialog label source
      choices).scene.Ending h₂ :=
    Scene.ending_apply hends (Scene.ending_of_not_waits (Scene.not_waits_fresh _ _ _ _)) _
  obtain ⟨m, hm, -⟩ := exists_heard_eq hquiet₁ hquiet₂ hends hstart hending n
  change first.heard h₁ = (second m).heard h₂ at hm
  refine ⟨m, ?_, (congrArg (·.choices) hm).symm, ?_, ?_⟩
  · rw [← heard_calls h₁, ← heard_calls h₂]
    exact congrArg (·.scene.calls) hm.symm
  · rw [← heard_player h₁, ← heard_player h₂]
    exact congrArg (·.scene.player) hm.symm
  · rw [← h₁.heard.due?_playthrough, ← h₂.heard.due?_playthrough]
    exact (congrArg (·.due? = none) hm.symm).to_iff

end Playthrough

/-- A host for which all code holds and every wait is over after so many polls. -/
def Host.slow (polls : Nat) : Host Nat Unit where
  perform _ left := left
  begin _ _ := ((), polls)
  poll _ left := (left = 0, left - 1)
  holds _ left := (true, left)

namespace Host

theorem answers_slow (polls : Nat) (demands : List Demand) (left : Nat) :
    (slow polls).answers demands left = instant.answers demands () := by
  induction demands generalizing left with
  | nil => rfl
  | cons demand demands ih =>
      cases demand with
      | effect | delay => exact ih _
      | code | scope => exact congrArg (_ :: ·) (ih _)

theorem pollsQuietly_instant : instant.PollsQuietly := fun _ _ _ => rfl

theorem pollsQuietly_slow (polls : Nat) : (slow polls).PollsQuietly := by
  intro handle left demands
  rw [answers_slow, answers_slow]

theorem endsWaits_slow (polls : Nat) : (slow polls).EndsWaits := by
  have hends (left : Nat) : (slow polls).Ends () left := by
    induction left with
    | zero => exact .ready (by simp [slow])
    | succ left ih => exact .pending ih
  exact fun _ _ => hends polls

end Host

/-- A dialog that comes to its end at once comes to the same end on a slow host. -/
theorem Playthrough.deeds_of_slow :
    let source := ":s\nA: \"Hello\"\n1 \"Yes\" -> t\n:t\npause 1"
    let first := (ofStart .instant (.fresh (fun _ => .ok "") {} {} ()) "a" "d" "s" source [1]).run
      .instant 4
    let second := fun m =>
      (ofStart (.slow 2) (.fresh (fun _ => .ok "") {} {} 0) "a" "d" "s" source [1]).run (.slow 2) m
    first.due? = none ∧ first.scene.deeds.length = 3 ∧
    ∃ m, (second m).scene.deeds = first.scene.deeds ∧ (second m).choices = first.choices ∧
      ((second m).scene.player.map fun _ => ()) = (first.scene.player.map fun _ => ()) ∧
      ((second m).due? = none ↔ first.due? = none) := by
  intro source first second
  refine ⟨by decide +kernel, by decide +kernel, ?_⟩
  exact deeds_of_waits Host.pollsQuietly_instant (Host.pollsQuietly_slow 2) (Host.endsWaits_slow 2)
    (fun demands => (Host.answers_slow 2 demands 0).symm) _ _ _ _ _ _ source [1] 4

end DialogScript
