import DialogScript.Proofs.Player.Independence
import DialogScript.Proofs.Player.Picking
import DialogScript.Proofs.Player.Provenance
import DialogScript.Proofs.Player.Waiting

/-!
# Echoes

When a choice is picked, the player may have its text said first. It then waits: further picks are
not heeded, and polls that find the text not yet said change nothing. Once the text has been said,
the player goes to the label of the choice and does there what it would have done at once without
the echo, provided that the echo and its polls do not change what the host answers.

## Main definitions

* `Scene.Lingers`: picks, and updates while the text is being said
* `Scene.Silenced`: a player that does not have chosen texts said
* `Scene.EndsLike`: two runs with the same calls that end at the same place

## Main results

* `Scene.of_lingers`: what lingers stays as it is
* `Scene.endsLike_of_said`: an echo delays what follows a choice and changes nothing else
* `Scene.picks_what_is_listed`: what picking a choice does
-/

namespace DialogScript

variable {σ ω : Type}

/-- The last label of a name is the one that is found. -/
theorem Script.findLabel?_of_isLast {script : Script} {name : String} {i : Nat}
    (hlast : script.IsLast name i) : script.findLabel? name = some i := by
  cases hfind : script.findLabel? name with
  | none =>
      obtain ⟨⟨l, hl, hname⟩, -⟩ := hlast
      exact absurd hname (findLabel?_eq_none_iff.mp hfind l (List.mem_of_getElem? hl))
  | some j => rw [(isLast_of_findLabel? hfind).unique hlast]

namespace Scene

variable {h : Host σ ω}

/-- Choices are picked, and the player is updated while what it waits for is not over. -/
inductive Lingers (h : Host σ ω) (s : Scene σ ω) : Scene σ ω → Prop
  | refl : Lingers h s s
  | choose {s'} (hs' : Lingers h s s') (k : Nat) : Lingers h s (s'.choose h k)
  | update {s'} (hs' : Lingers h s s') (hpending : s'.Pending h) : Lingers h s (s'.update h)

/-- The scene with a player that does not have chosen texts said. -/
def silenced (s : Scene σ ω) : Scene σ ω := { s with player := { s.player with parrot := false } }

/-- Behind the calls `k` and `k'`, two runs have made the same calls, whatever their handles, and
they have ended with the same log, at the same place, with the same choices, in the same phase and
with the same limit and override. -/
structure EndsLike (k k' : List (Call ω)) (s t : Scene σ ω) : Prop where
  calls : ∃ calls calls', s.calls = k ++ calls ∧ t.calls = k' ++ calls' ∧
    calls.map (Call.map fun _ => ()) = calls'.map (Call.map fun _ => ())
  log : s.player.log = t.player.log
  label : s.player.label = t.player.label
  cursor : s.player.cursor = t.player.cursor
  slots : s.player.slots = t.player.slots
  phase : s.player.phase = t.player.phase
  limit : s.player.limit = t.player.limit
  override : s.player.override = t.player.override

/-! ### While the text is being said -/

theorem choose_of_echoing {s : Scene σ ω} (hphase : s.player.phase = .echoing) (k : Nat) :
    s.choose h k = s.remark (.pickIgnored k .echoing) := by
  rw [choose_eq_proceed, pick, if_pos (by simp [hphase]), hphase]
  rfl

/-- Nothing changes but that the host is polled. -/
theorem of_lingers {s s' : Scene σ ω} {handle : ω} (hphase : s.player.phase = .echoing)
    (hwait : s.player.wait = some handle) (hlingers : Lingers h s s') :
    s'.player = s.player ∧
      ∃ n, s'.calls = s.calls ++ List.replicate n (.poll handle false) := by
  induction hlingers with
  | refl => exact ⟨rfl, 0, (List.append_nil _).symm⟩
  | choose _ k ih =>
      obtain ⟨hplayer, n, hcalls⟩ := ih
      rw [choose_of_echoing (by rw [hplayer, hphase])]
      exact ⟨hplayer, n, (calls_remark _ _).trans hcalls⟩
  | @update s' _ hpending ih =>
      obtain ⟨hplayer, n, hcalls⟩ := ih
      obtain ⟨handle', hwait', -, hsame, -⟩ := hpending.polled
      rw [hplayer, hwait] at hwait'
      obtain rfl := Option.some.inj hwait'
      have hpolled := calls_pollWait (h := h) (s := s') (Prod.ext hpending.2 rfl)
      rw [hplayer, hwait, hcalls, List.append_assoc] at hpolled
      rw [update_of_pending hpending]
      refine ⟨hsame.trans hplayer, n + 1, hpolled.trans ?_⟩
      rw [List.replicate_succ']
      rfl

/-! ### When the text has been said -/

/-- When the text has been said, the player goes to the label that was to follow. -/
theorem update_of_said {s : Scene σ ω} {handle : ω} {x : σ} (hphase : s.player.phase = .echoing)
    (hwait : s.player.wait = some handle) (hpoll : h.poll handle s.host = (true, x)) :
    ∃ s₁ : Scene σ ω, s.update h = s₁.goTo h s.player.destination ∧
      s₁.calls = s.calls ++ [.poll handle true] ∧ s₁.host = x ∧
      s₁.player = { s.player with wait := none, destination := "" } := by
  rcases hpolled : s.pollWait h with ⟨ready, s'⟩
  have hhost := host_pollWait hpolled hwait
  rw [hpoll] at hhost
  obtain ⟨rfl, rfl⟩ := Prod.mk.inj hhost
  have hcalls := calls_pollWait hpolled
  have hplayer := player_pollWait hpolled
  rw [hwait] at hcalls
  refine ⟨{ s' with player := { s'.player with destination := "" } }, ?_, hcalls, rfl, ?_⟩
  · rw [update, hphase]
    dsimp only
    rw [hpolled]
    dsimp only
    rw [hplayer]
  · dsimp only
    rw [hplayer]

theorem heard_goTo (h : Host σ ω) (s : Scene σ ω) (name : String) :
    h.heard.scene (s.goTo h name) = (h.heard.scene s).goTo Host.oracle name := by
  rw [goTo_eq_proceed, goTo_eq_proceed, Host.View.enter_scene]
  exact (Host.View.proceed_scene rfl _).symm

/-- Calls without polls are heard. -/
theorem deeds_append {s s' : Scene σ ω} {calls : List (Call ω)}
    (hcalls : s'.calls = s.calls ++ calls) (hunpolled : ∀ c ∈ calls, c.isPoll = false) :
    s'.deeds = s.deeds ++ calls.map (Call.map fun _ => ()) := by
  have hkept : calls.filter (!·.isPoll) = calls := by
    rw [List.filter_eq_self]
    intro c hc
    rw [hunpolled c hc]
    rfl
  rw [deeds, deeds, hcalls, List.filter_append, hkept, List.map_append]

/-- Players that are heard alike do the same when they go to a label. -/
theorem endsLike_goTo {s t : Scene σ ω}
    (hst : Alike (h.heard.scene t) (h.heard.scene s)) (name : String) :
    EndsLike s.calls t.calls (s.goTo h name) (t.goTo h name) := by
  obtain ⟨⟨-, hwalker, -, hoverride⟩, hphase, heard, ht, hs⟩ := hst.goTo (h := Host.oracle) name
  rw [← heard_goTo, ← heard_goTo] at hwalker hoverride hphase
  rw [← heard_goTo] at hs ht
  obtain ⟨calls, hcalls, hspeech, -⟩ := begins_enter (h := h) s name
  obtain ⟨calls', hcalls', hspeech', -⟩ := begins_enter (h := h) t name
  rw [← goTo_eq_proceed] at hcalls hcalls'
  rw [Playthrough.heard_calls, Playthrough.heard_calls, deeds_append hcalls hspeech.unpolled] at hs
  rw [Playthrough.heard_calls, Playthrough.heard_calls,
    deeds_append hcalls' hspeech'.unpolled] at ht
  have hsame := (List.append_cancel_left hs).trans (List.append_cancel_left ht).symm
  exact {
    calls := ⟨calls, calls', hcalls, hcalls', hsame⟩
    log := congrArg Walker.log hwalker
    label := congrArg Walker.label hwalker
    cursor := congrArg Walker.cursor hwalker
    slots := congrArg Walker.slots hwalker
    phase := hphase
    limit := congrArg Walker.limit hwalker
    override := hoverride }

/-- An echo delays what follows a choice and changes nothing else. Let a choice be picked whose text
is said, and let the player come through picks and polls to where the text has been said. If the
host then gives the answers that it gave when the choice was picked, the player does what it would
have done at once if it did not have chosen texts said. -/
theorem endsLike_of_said {s s' : Scene σ ω} {st : Statement} {text target : String} {handle : ω}
    {x : σ} (hwait : ((s.use st).echo h text target).player.wait = some handle)
    (hlingers : Lingers h ((s.use st).echo h text target) s')
    (hpoll : h.poll handle s'.host = (true, x))
    (hanswers : ∀ demands, h.answers demands x = h.answers demands s.host) :
    EndsLike (s'.calls ++ [.poll handle true]) s.calls (s'.update h)
      ((s.silenced.use st).goTo h target) := by
  obtain ⟨hplayer, -⟩ := of_lingers rfl hwait hlingers
  have hphase : s'.player.phase = .echoing := by
    rw [hplayer]
    rfl
  have hdestination : s'.player.destination = target := by
    rw [hplayer]
    rfl
  obtain ⟨polled, hupdate, hcalls, hhost, hpolled⟩ :=
    update_of_said hphase (by rw [hplayer, hwait]) hpoll
  rw [hplayer] at hpolled
  have hstate : h.heard.state x = h.heard.state s.host := funext hanswers
  have halike : Alike (h.heard.scene (s.silenced.use st)) (h.heard.scene polled) := by
    refine ⟨?_, ?_, ?_, ?_⟩
    · rw [stage, Host.View.scene_player, hpolled]
      rfl
    · rw [walker, Host.View.scene_player, Host.View.scene_host, hpolled, hhost, hstate]
      rfl
    · rw [Host.View.scene_player, hpolled]
      rfl
    · rw [Host.View.scene_player, hpolled]
      rfl
  have hends := endsLike_goTo halike target
  rw [hcalls, show (s.silenced.use st).calls = s.calls from calls_use s.silenced st] at hends
  rwa [hupdate, hdestination]

/-! ### What picking does -/

/-- Going to a label keeps the log. -/
theorem mem_entries_goTo {s : Scene σ ω} {e : Entry} (he : e ∈ s.player.log.entries)
    (name : String) : e ∈ (s.goTo h name).player.log.entries := by
  rw [goTo_eq_proceed]
  obtain ⟨-, es, -, hlog, -⟩ := (adds_proceed (h := h) (adds_enter s name)).entries
  rw [hlog]
  exact Log.mem_extend.mpr (.inl he)

/-- What is used up when a choice is picked comes into the log. -/
theorem mem_entries_choose {s : Scene σ ω} {k : Nat} {st : Statement} {number : Int32}
    {text target : String} (hphase : s.player.phase = .choosing)
    (hpicked : s.player.picked? k = some st) (hchoice : st.choice? = some (number, text, target))
    {scope : Scope} {line : UInt32} (hscope : scope.onShow = false)
    (hmem : ⟨.scope scope, line⟩ ∈ st.conditions) :
    ⟨scope, s.player.site line⟩ ∈ (s.choose h k).player.log.entries := by
  have hused : ⟨scope, s.player.site line⟩ ∈ (s.use st).player.log.entries := by
    rw [player_use]
    refine Log.mem_extend.mpr (.inr (Statement.mem_entries.mpr ⟨?_, rfl, rfl, ?_⟩))
    · simp [hscope]
    · exact decide_eq_true hmem
  rw [choose_of_picked hphase hpicked hchoice]
  split
  · exact hused
  · exact mem_entries_goTo hused target

/-- Picking acts on what is listed, and saying the text only delays it. Whatever has become of a
player: a choice that is not listed is not heeded. For a choice that is listed there is a statement
in the place of that order with the text that is listed. Of its scopes those that last until it is
used are recorded. If chosen texts are not said, the player goes on at the last label of the name,
or ends the dialog if there is none. If they are said, the one call is to say the text for the actor
of the session; further picks and polls then change nothing until the text has been said; and if the
host gives the same answers as before, what follows is what the pick would have led to if chosen
texts were not said. -/
theorem picks_what_is_listed {s : Scene σ ω} (hs : Reached h s) (k : Nat) :
    let p := s.player
    let picked := s.choose h k
    ((p.phase ≠ .choosing ∨ k = 0 ∨ p.choiceTexts.length < k) →
      picked.player = p ∧ picked.host = s.host ∧ picked.calls = s.calls) ∧
    (p.phase = .choosing → 1 ≤ k → k ≤ p.choiceTexts.length →
      ∃ i st number text target, p.offered[k - 1]? = some i ∧ p.statement? i = some st ∧
        st.choice? = some (number, text, target) ∧ p.choiceTexts[k - 1]? = some text ∧
        (∀ scope line, scope.onShow = false → ⟨.scope scope, line⟩ ∈ st.conditions →
          ⟨scope, p.site line⟩ ∈ picked.player.log.entries) ∧
        (p.parrot = false →
          (∀ j, p.script.IsLast target j →
            picked = (((s.use st).remark (.entered target)).enterAt j).advance h) ∧
          ((∀ l ∈ p.script.labels, l.name ≠ target) →
            picked = ((s.use st).remark (.missing target p.dialog)).finish)) ∧
        (p.parrot = true → ∃ handle,
          picked.calls = s.calls ++ [.delay (.say p.actor text) handle] ∧
          ∀ s', Lingers h picked s' → s'.player = picked.player ∧
            (∃ n, s'.calls = picked.calls ++ List.replicate n (.poll handle false)) ∧
            ∀ x, h.poll handle s'.host = (true, x) →
              (∀ demands, h.answers demands x = h.answers demands s.host) →
              EndsLike (s'.calls ++ [.poll handle true]) s.calls (s'.update h)
                (s.silenced.choose h k))) := by
  intro p picked
  have hholds := holdsChoices_of_reached hs
  constructor
  · intro hk
    obtain ⟨r, hsame⟩ := choose_of_unheeded (h := h) hholds hk
    rw [show picked = s.remark r from hsame]
    exact ⟨rfl, rfl, calls_remark s r⟩
  · intro hphase hpos hle
    obtain ⟨i, st, number, text, target, hi, hst, hchoice, htext⟩ :=
      Player.exists_picked hholds hpos hle
    have hpicked : p.picked? k = some st := (Player.picked?_of_offered hpos hi).trans hst
    have heq := choose_of_picked (h := h) hphase hpicked hchoice
    refine ⟨i, st, number, text, target, hi, hst, hchoice, htext,
      fun scope line hscope hmem => mem_entries_choose hphase hpicked hchoice hscope hmem, ?_, ?_⟩
    · intro hparrot
      rw [show s.player.parrot = false from hparrot, if_neg Bool.false_ne_true] at heq
      refine ⟨fun j hlast => ?_, fun hmissing => ?_⟩
      · rw [show picked = _ from heq]
        exact goTo_of_findLabel? (Script.findLabel?_of_isLast hlast)
      · rw [show picked = _ from heq]
        exact goTo_of_missing (Script.findLabel?_eq_none_iff.mpr hmissing)
    · intro hparrot
      have hecho : picked = (s.use st).echo h text target := by
        rw [show picked = _ from heq, if_pos hparrot]
      have hsilenced : s.silenced.choose h k = (s.silenced.use st).goTo h target :=
        choose_of_picked (s := s.silenced) hphase hpicked hchoice
      obtain ⟨handle, hwait, hevents⟩ := events_echo (h := h) (s.use st) text target
      have hsaid := congrArg (List.filterMap Event.call?) hevents
      rw [List.filterMap_append] at hsaid
      rw [hecho, hsilenced]
      refine ⟨handle, hsaid.trans (congrArg (· ++ [_]) (calls_use s st)), fun s' hlingers => ?_⟩
      obtain ⟨hplayer, n, hcalls⟩ := of_lingers rfl hwait hlingers
      exact ⟨hplayer, ⟨n, hcalls⟩, fun x hpoll hanswers =>
        endsLike_of_said hwait hlingers hpoll hanswers⟩

/-- The second of two choices, in the place of number three, is picked; the first is picked in vain
while the text is being said. -/
theorem picks_of_slow :
    let h := Host.slow 1
    let source := ":s\n1 \"x\" -> t\n3 \"y\" -> t [once]\n:t\n!z"
    let new : Scene Nat Unit := { player := .new fun _ => .ok "", host := 0 }
    let s := new.apply h (.startSource "a" "d" "s" source)
    let s' := ((s.choose h 2).update h).choose h 1
    Reached h s ∧ s.player.phase = .choosing ∧ s.player.choiceTexts = ["x", "y"] ∧
      (s.choose h 2).calls = s.calls ++ [.delay (.say "a" "y") ()] ∧
      ⟨.once, s.player.site 3⟩ ∈ (s.choose h 2).player.log.entries ∧
      EndsLike (s'.calls ++ [.poll () true]) s.calls (s'.update h) (s.silenced.choose h 2) ∧
      (s'.update h).calls = s.calls ++
        [.delay (.say "a" "y") (), .poll () false, .poll () true, .effect (.execute "z")] := by
  intro h source new s s'
  have hs : Reached h s := .apply (.new _ 0) _
  have hphase : s.player.phase = .choosing := by decide +kernel
  have htexts : s.player.choiceTexts = ["x", "y"] := by decide +kernel
  obtain ⟨-, hpicks⟩ := picks_what_is_listed hs 2
  obtain ⟨i, st, number, text, target, -, -, -, -, -, -, hechoes⟩ :=
    hpicks hphase (by decide) (by rw [htexts]; decide)
  obtain ⟨⟨⟩, -, hlingers⟩ := hechoes (by decide +kernel)
  have hpending : (s.choose h 2).Pending h := ⟨.inr (by decide +kernel), by decide +kernel⟩
  obtain ⟨-, -, hends⟩ := hlingers s' (.choose (.update .refl hpending) 1)
  have hanswers (demands : List Demand) (x y : Nat) :
      h.answers demands x = h.answers demands y := by
    rw [Host.answers_slow, Host.answers_slow]
  exact ⟨hs, hphase, htexts, by decide +kernel, by decide +kernel,
    hends 0 (by decide +kernel) (hanswers · _ _), by decide +kernel⟩

end Scene

end DialogScript
