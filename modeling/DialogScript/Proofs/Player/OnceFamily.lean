import DialogScript.Proofs.Log
import DialogScript.Proofs.Player.Transcript

/-!
# Conditions of the once family fire at most once

A statement under a condition of the once family is barred by the entry that the condition leaves in
the log. The entry of `once` and `onceever` is made when the statement is used, long after its
conditions have been asked if it is a choice; that of `showonce` and `temponce` is made when it is
judged. The invariant carried through a run ties three things together for one scope at one site:
the scope has fired at most once, after it has fired the log bars it, and a choice on offer that
would fire it is not barred yet.

## Main definitions

* `Host.AsksLog`: the host answers conditions of the once family from the log
* `Event.isUse`, `Event.isAcceptance`: a statement under a condition is used, or accepted
* `Event.fires`: an event that uses up a scope at a site
* `Scene.FiredOnce`, `Scene.FiresOnce`: the invariant

## Main results

* `Scene.not_contains_of_judge`: an accepted statement was not barred
* `Scene.firesOnce_of_visit`, `Scene.firesOnce_apply`: visits and operations keep the invariant
* `Scene.once_family_fires_at_most_once`: over every run
-/

namespace DialogScript

/-- The host answers conditions of the once family from the log. -/
def Host.AsksLog {σ ω : Type} (h : Host σ ω) : Prop :=
  ∀ scope log site state, (h.admits scope log site state).1 = !log.contains scope site

theorem Host.instant_asksLog : instant.AsksLog := fun _ _ _ _ => rfl

namespace Event

variable {ω : Type}

/-- A statement with a condition of the scope on the line is run or picked in a session of the
dialog, by an actor for whom `who` holds. -/
def isUse (scope : Scope) (who : String → Bool) (dialog : String) (line : UInt32) :
    Event ω → Bool
  | used a d st => who a && d = dialog && st.carries scope line
  | _ => false

/-- All conditions of a statement with a condition of the scope on the line hold in a session of the
actor and the dialog. -/
def isAcceptance (scope : Scope) (actor dialog : String) (line : UInt32) : Event ω → Bool
  | judged a d st accepted => accepted && a = actor && d = dialog && st.carries scope line
  | _ => false

/-- The event uses up the scope at the site: a statement that marks it is used, or shown. -/
def fires (scope : Scope) (site : Site) : Event ω → Bool
  | used a d st => !scope.onShow && st.marks scope a d site
  | judged a d st accepted => accepted && scope.onShow && st.marks scope a d site
  | _ => false

theorem fires_of_isPlain {e : Event ω} (he : e.isPlain = true) (scope : Scope) (site : Site) :
    e.fires scope site = false := by
  cases e with
  | call | remark => rfl
  | judged | used => simp [isPlain] at he

theorem isUse_once (actor dialog : String) (line : UInt32) :
    isUse (ω := ω) .once (decide <| · = actor) dialog line = fires .once ⟨actor, dialog, line⟩ := by
  funext e
  cases e with
  | used a d st =>
      simp only [isUse, fires, Statement.marks, Scope.onShow, reduceCtorEq, decide_false,
        Bool.false_or, Bool.not_false, Bool.true_and]
      ac_rfl
  | _ => simp [isUse, fires, Scope.onShow]

theorem isUse_onceEver (dialog : String) (line : UInt32) :
    isUse (ω := ω) .onceEver (fun _ => true) dialog line = fires .onceEver ⟨"", dialog, line⟩ := by
  funext e
  cases e with
  | used a d st =>
      simp only [isUse, fires, Statement.marks, Scope.onShow, decide_true, Bool.true_or,
        Bool.not_false, Bool.true_and, Bool.and_true]
      ac_rfl
  | _ => simp [isUse, fires, Scope.onShow]

theorem isAcceptance_eq_fires {scope : Scope} (hscope : scope.onShow = true) (actor dialog : String)
    (line : UInt32) :
    isAcceptance (ω := ω) scope actor dialog line = fires scope ⟨actor, dialog, line⟩ := by
  have hever : scope ≠ .onceEver := by
    rintro rfl
    simp [Scope.onShow] at hscope
  funext e
  cases e with
  | judged a d st accepted =>
      simp only [isAcceptance, fires, Statement.marks, hscope, hever, decide_false,
        Bool.false_or, Bool.and_true]
      ac_rfl
  | _ => simp [isAcceptance, fires, hscope]

end Event

namespace Scene

variable {σ ω : Type} {h : Host σ ω}

/-! ### What an accepted statement tells -/

/-- Conditions that all hold were asked of a host that knew of no entry barring them. -/
theorem not_contains_of_askAll (hasks : h.AsksLog) {s : Scene σ ω} {cs : List Condition}
    (hall : (s.askAll h cs).1 = true) {scope : Scope} {line : UInt32}
    (hmem : ⟨.scope scope, line⟩ ∈ cs) :
    s.player.log.contains scope (s.player.site line) = false := by
  induction cs generalizing s with
  | nil => cases hmem
  | cons c cs ih =>
      rw [askAll_cons] at hall
      split at hall
      · rename_i hholds
        rcases List.mem_cons.mp hmem with rfl | hmem
        · have hanswer : (s.ask h ⟨.scope scope, line⟩).1 =
              !s.player.log.contains scope (s.player.site line) := hasks _ _ _ _
          rw [hanswer, Bool.not_eq_true'] at hholds
          exact hholds
        · have hrest := ih hall hmem
          rwa [player_ask] at hrest
      · cases hall

/-- Whether a site is barred depends on the actor only where the scope does. -/
theorem contains_congr_of_marks {st : Statement} {scope : Scope} {actor dialog : String}
    {site : Site} (hmarks : st.marks scope actor dialog site = true) (log : Log) :
    log.contains scope site = log.contains scope ⟨actor, dialog, site.line⟩ := by
  obtain ⟨⟨-, rfl⟩, hactor⟩ := by
    simpa only [Statement.marks, Bool.and_eq_true, Bool.or_eq_true, decide_eq_true_eq] using hmarks
  have hmatches (e : Entry) :
      e.matches scope site = e.matches scope ⟨actor, site.dialog, site.line⟩ := by
    rcases hactor with rfl | rfl
    · simp [Entry.matches]
    · rfl
  simp only [Log.contains, hmatches]

/-- An accepted statement was not barred when it was judged. -/
theorem not_contains_of_judge (hasks : h.AsksLog) {s s₁ : Scene σ ω} {st : Statement}
    (hjudge : s.judge h st = (true, s₁)) {scope : Scope} {site : Site}
    (hmarks : st.marks scope s.player.actor s.player.dialog site = true) :
    s.player.log.contains scope site = false := by
  have hall : (s.askAll h st.conditions).1 = true := congrArg Prod.fst hjudge
  rw [contains_congr_of_marks hmarks]
  have hcarries : st.carries scope site.line = true := by
    simp only [Statement.marks, Bool.and_eq_true] at hmarks
    exact hmarks.1.1
  exact not_contains_of_askAll hasks hall (of_decide_eq_true hcarries)

/-! ### The invariant -/

/-- Since the first `k` events of the transcript, the scope has fired at most once at the site, and
if it has, the log bars it. -/
structure FiredOnce (scope : Scope) (site : Site) (k : Nat) (s : Scene σ ω) : Prop where
  since : k ≤ s.events.length
  count : (s.events.drop k).countP (Event.fires scope site) ≤ 1
  barred : (s.events.drop k).countP (Event.fires scope site) ≠ 0 →
    s.player.log.contains scope site = true

/-- Moreover, no choice on offer that would fire the scope at the site is barred. -/
structure FiresOnce (scope : Scope) (site : Site) (k : Nat) (s : Scene σ ω) : Prop
    extends FiredOnce scope site k s where
  offered : s.player.phase ≠ .echoing → scope.onShow = false →
    ∀ (j : Fin maxChoices) i st, s.player.slots.get j = some i → s.player.statement? i = some st →
      st.marks scope s.player.actor s.player.dialog site = true →
        s.player.log.contains scope site = false

variable {scope : Scope} {site : Site} {k : Nat}

theorem countP_fires_of_isPlain {more : List (Event ω)} (hmore : ∀ e ∈ more, e.isPlain = true) :
    more.countP (Event.fires scope site) = 0 := by
  rw [List.countP_eq_zero]
  intro e he
  simp [Event.fires_of_isPlain (hmore e he)]

namespace FiredOnce

/-- The count may grow by one where the scope was not barred and is barred afterwards. -/
theorem extend {s s' : Scene σ ω} {more : List (Event ω)} (hs : FiredOnce scope site k s)
    (hevents : s'.events = s.events ++ more)
    (hlog : s.player.log.contains scope site = true → s'.player.log.contains scope site = true)
    (hmore : more.countP (Event.fires scope site) = 0 ∨
      more.countP (Event.fires scope site) = 1 ∧ s.player.log.contains scope site = false ∧
        s'.player.log.contains scope site = true) :
    FiredOnce scope site k s' := by
  have hdrop : s'.events.drop k = s.events.drop k ++ more := by
    rw [hevents, List.drop_append_of_le_length hs.since]
  have hsince : k ≤ s'.events.length := by
    rw [hevents, List.length_append]
    exact Nat.le_add_right_of_le hs.since
  rcases hmore with hnone | ⟨hone, hfree, hbarred⟩
  · refine ⟨hsince, ?_, ?_⟩ <;> rw [hdrop, List.countP_append, hnone, Nat.add_zero]
    · exact hs.count
    · exact fun hfired => hlog (hs.barred hfired)
  · -- an unbarred scope has not fired yet
    have hnone : (s.events.drop k).countP (Event.fires scope site) = 0 := by
      refine Decidable.byContradiction fun hfired => ?_
      rw [hs.barred hfired] at hfree
      cases hfree
    refine ⟨hsince, ?_, fun _ => hbarred⟩
    rw [hdrop, List.countP_append]
    omega

/-- A quiet part that bars what was barred fires nothing. -/
theorem quiet {s s' : Scene σ ω} (hs : FiredOnce scope site k s) (hquiet : Quiet s s')
    (hlog : s'.player.log.contains scope site = s.player.log.contains scope site) :
    FiredOnce scope site k s' := by
  obtain ⟨more, hevents, hplain⟩ := hquiet
  exact hs.extend hevents (fun hbarred => hlog.trans hbarred)
    (.inl (countP_fires_of_isPlain hplain))

/-- Where nothing is on offer, nothing on offer is barred. -/
theorem of_empty {s : Scene σ ω} (hs : FiredOnce scope site k s)
    (hslots : s.player.slots = .empty) : FiresOnce scope site k s := by
  refine { toFiredOnce := hs, offered := fun _ _ j i st hslot => ?_ }
  rw [hslots, Player.get_empty] at hslot
  cases hslot

/-- A quiet part fires nothing, whatever becomes of the log. -/
theorem of_quiet {s s' : Scene σ ω} (hquiet : Quiet s s') :
    FiredOnce scope site s.events.length s' := by
  obtain ⟨more, hevents, hplain⟩ := hquiet
  have hnone : (s'.events.drop s.events.length).countP (Event.fires scope site) = 0 := by
    rw [hevents, List.drop_left]
    exact countP_fires_of_isPlain hplain
  refine ⟨?_, by omega, fun hfired => absurd hnone hfired⟩
  rw [hevents, List.length_append]
  exact Nat.le_add_right _ _

theorem refl (s : Scene σ ω) : FiredOnce scope site s.events.length s := of_quiet (.refl s)

end FiredOnce

/-- A quiet part that leaves the place and the choices alone keeps the invariant. -/
theorem FiresOnce.quiet_of_place {s s' : Scene σ ω} (hs : FiresOnce scope site k s)
    (hquiet : Quiet s s') (hlog : s'.player.log = s.player.log)
    (hslots : s'.player.slots = s.player.slots) (hscript : s'.player.script = s.player.script)
    (hlabel : s'.player.label = s.player.label) (hactor : s'.player.actor = s.player.actor)
    (hdialog : s'.player.dialog = s.player.dialog)
    (hphase : s'.player.phase = .echoing ∨ s.player.phase ≠ .echoing) :
    FiresOnce scope site k s' := by
  refine { toFiredOnce := hs.toFiredOnce.quiet hquiet (by rw [hlog]), offered := ?_ }
  intro hphase' hshow j i st hslot hst hmarks
  rw [hslots] at hslot
  rw [Player.statement?_congr hscript hlabel] at hst
  rw [hactor, hdialog] at hmarks
  rw [hlog]
  exact hs.offered (hphase.resolve_left hphase') hshow j i st hslot hst hmarks

/-! ### Visits -/

/-- Judging a statement fires a scope that fires when it is shown only if it was not barred. -/
theorem firedOnce_judge (hasks : h.AsksLog) {s s₁ : Scene σ ω} {st : Statement} {accepted : Bool}
    (hs : FiredOnce scope site k s) (hjudge : s.judge h st = (accepted, s₁)) :
    FiredOnce scope site k s₁ := by
  have hplayer := player_of_judge hjudge
  obtain ⟨more, hplain, hevents⟩ := events_judge hjudge
  rw [List.append_assoc] at hevents
  refine hs.extend hevents ?_ ?_
  · intro hbarred
    rw [hplayer]
    exact Log.contains_extend_of_contains hbarred _
  · rw [List.countP_append, countP_fires_of_isPlain hplain, Nat.zero_add]
    by_cases hfires : Event.fires (ω := ω) scope site
        (.judged s.player.actor s.player.dialog st accepted) = true
    · rw [List.countP_singleton, if_pos hfires]
      obtain ⟨⟨rfl, hshow⟩, hmarks⟩ := by simpa only [Event.fires, Bool.and_eq_true] using hfires
      refine .inr ⟨rfl, not_contains_of_judge hasks hjudge hmarks, ?_⟩
      rw [hplayer]
      exact Statement.contains_extend_entries.mpr (.inr ⟨hshow, hmarks⟩)
    · rw [List.countP_singleton, if_neg hfires]
      exact .inl rfl

/-- Judging a statement keeps the invariant. -/
theorem firesOnce_judge (hasks : h.AsksLog) {s s₁ : Scene σ ω} {st : Statement} {accepted : Bool}
    (hs : FiresOnce scope site k s) (hjudge : s.judge h st = (accepted, s₁)) :
    FiresOnce scope site k s₁ := by
  refine { toFiredOnce := firedOnce_judge hasks hs.toFiredOnce hjudge, offered := ?_ }
  have hplayer := player_of_judge hjudge
  intro hphase hshow j i st' hslot hst hmarks
  rw [hplayer] at hphase hslot hst hmarks ⊢
  rw [Statement.contains_extend_entries_of_not hshow]
  exact hs.offered hphase hshow j i st' hslot hst hmarks

/-- Using a statement fires at most once if what it marks is not barred yet. -/
theorem firedOnce_used {s s' : Scene σ ω} {st : Statement} {more : List (Event ω)}
    (hs : FiredOnce scope site k s) (hplain : ∀ e ∈ more, e.isPlain = true)
    (hevents : s'.events = s.events ++ more ++ [.used s.player.actor s.player.dialog st])
    (hlog : s'.player.log =
      s.player.log.extend (st.entries (!·.onShow) s.player.actor s.player.dialog))
    (hfree : scope.onShow = false → st.marks scope s.player.actor s.player.dialog site = true →
      s.player.log.contains scope site = false) :
    FiredOnce scope site k s' := by
  rw [List.append_assoc] at hevents
  refine hs.extend hevents ?_ ?_
  · intro hbarred
    rw [hlog]
    exact Log.contains_extend_of_contains hbarred _
  · rw [List.countP_append, countP_fires_of_isPlain hplain, Nat.zero_add]
    by_cases hfires : Event.fires (ω := ω) scope site
        (.used s.player.actor s.player.dialog st) = true
    · rw [List.countP_singleton, if_pos hfires]
      obtain ⟨hshow, hmarks⟩ := by simpa only [Event.fires, Bool.and_eq_true] using hfires
      refine .inr ⟨rfl, hfree (by simpa using hshow) hmarks, ?_⟩
      rw [hlog]
      exact Statement.contains_extend_entries.mpr (.inr ⟨hshow, hmarks⟩)
    · rw [List.countP_singleton, if_neg hfires]
      exact .inl rfl

/-- What an accepted statement marks is not barred before it is used. -/
theorem not_contains_after_judge (hasks : h.AsksLog) {s s₁ : Scene σ ω} {st : Statement}
    (hjudge : s.judge h st = (true, s₁)) (hshow : scope.onShow = false)
    (hmarks : st.marks scope s₁.player.actor s₁.player.dialog site = true) :
    s₁.player.log.contains scope site = false := by
  have hplayer := player_of_judge hjudge
  rw [hplayer] at hmarks ⊢
  rw [Statement.contains_extend_entries_of_not hshow]
  exact not_contains_of_judge hasks hjudge hmarks

/-- Running an accepted statement while nothing is on offer keeps the invariant. -/
theorem firedOnce_run (hasks : h.AsksLog) {s s₁ s₂ : Scene σ ω} {st : Statement} {flow : Flow ω}
    (hs : FiredOnce scope site k s) (hjudge : s.judge h st = (true, s₁))
    (hopen : s₁.player.hasChoices = false) (hrun : s₁.run h st = (flow, s₂)) :
    FiredOnce scope site k s₂ ∧ s₂.player.slots = .empty := by
  have hplayer := player_of_run hrun
  obtain ⟨more, hplain, hevents⟩ := events_run hrun
  refine ⟨firedOnce_used (firedOnce_judge hasks hs hjudge) hplain hevents ?_
    (not_contains_after_judge hasks hjudge), ?_⟩
  · rw [hplayer]
  · rw [hplayer]
    exact (Player.obey_slots ..).trans (Player.eq_empty_of_hasChoices hopen)

/-- Offering an accepted choice and passing over it keeps the invariant. -/
theorem firesOnce_offer (hasks : h.AsksLog) {s s₁ : Scene σ ω} {st : Statement} {number : Int32}
    (hs : FiresOnce scope site k s) (hphase : s.player.phase ≠ .echoing)
    (hhere : s.player.here? = some st) (hjudge : s.judge h st = (true, s₁)) :
    FiresOnce scope site k (s₁.offer number).step := by
  have hjudged := firesOnce_judge hasks hs hjudge
  have hplayer := player_of_judge hjudge
  have hphase₁ : s₁.player.phase ≠ .echoing := by rwa [hplayer]
  rcases offer_cases s₁ number with ⟨⟨r, hoffer⟩, -⟩ | ⟨j₀, -, -, -, hoffer⟩
  · rw [hoffer]
    have hquiet : Quiet s₁ (s₁.remark r).step := .remark s₁ r
    exact hjudged.quiet_of_place hquiet rfl rfl rfl rfl rfl rfl (.inr hphase₁)
  · rw [hoffer]
    refine { toFiredOnce := hjudged.toFiredOnce.quiet (.of_events_eq rfl) rfl, offered := ?_ }
    intro _ hshow j i st' hslot hst hmarks
    change s₁.player.log.contains scope site = false
    by_cases hj : j = j₀
    · -- the place that has just been filled holds the statement that was judged
      subst hj
      have hi : s₁.player.cursor = i :=
        Option.some.inj ((Player.get_set_self _ j _).symm.trans hslot)
      have hst' : s₁.player.here? = some st' := by
        rw [Player.here?, hi]
        exact hst
      rw [here?_judge hjudge, hhere] at hst'
      obtain rfl := Option.some.inj hst'
      exact not_contains_after_judge hasks hjudge hshow hmarks
    · have hold : s₁.player.slots.get j = some i :=
        (Player.get_set_of_ne _ hj _).symm.trans hslot
      exact hjudged.offered hphase₁ hshow j i st' hold hst hmarks

/-- A visit that leads on keeps the invariant. -/
theorem firesOnce_of_visit (hasks : h.AsksLog) {s s' : Scene σ ω}
    (hs : FiresOnce scope site k s ∧ s.player.phase ≠ .echoing) (hvisit : Visit h s (.on s')) :
    FiresOnce scope site k s' ∧ s'.player.phase ≠ .echoing := by
  obtain ⟨hs, hphase⟩ := hs
  cases hvisit with
  | @rejected st s₁ hhere hjudge =>
      have hplayer := player_of_judge hjudge
      have hphase₁ : s₁.player.phase ≠ .echoing := by rwa [hplayer]
      have hquiet : Quiet s₁ s₁.step := .of_events_eq rfl
      exact ⟨(firesOnce_judge hasks hs hjudge).quiet_of_place hquiet rfl rfl rfl rfl rfl rfl
        (.inr hphase₁), hphase₁⟩
  | @offered st s₁ number text target hhere hjudge hchoice =>
      have hplayer := player_of_judge hjudge
      obtain ⟨slots, hslots⟩ := player_offer s₁ number
      refine ⟨firesOnce_offer hasks hs hphase hhere hjudge, ?_⟩
      rw [player_step, hslots]
      dsimp only at hplayer ⊢
      rwa [hplayer]
  | @ran st s₁ s₂ hhere hjudge hchoice hopen hrun =>
      obtain ⟨hran, hslots⟩ := firedOnce_run hasks hs.toFiredOnce hjudge hopen hrun
      have hstep : FiredOnce scope site k s₂.step := hran.quiet (.of_events_eq rfl) rfl
      refine ⟨hstep.of_empty hslots, ?_⟩
      rw [player_step, player_of_run hrun]
      simpa [player_of_judge hjudge] using hphase
  | through hend hopen hnext =>
      refine ⟨FiredOnce.of_empty ?_ rfl, by simp⟩
      exact hs.toFiredOnce.quiet (.of_events_eq rfl) rfl

/-- The end of a dialog keeps the invariant. -/
theorem firesOnce_finish {s : Scene σ ω} (hs : FiredOnce scope site k s) :
    FiresOnce scope site k s.finish := by
  have hplayer := player_finish s
  exact (hs.quiet (quiet_finish s) (by rw [hplayer])).of_empty (by rw [hplayer])

/-- A visit that ends an activation keeps the invariant. -/
theorem firesOnce_of_halt (hasks : h.AsksLog) {s s' : Scene σ ω}
    (hs : FiresOnce scope site k s ∧ s.player.phase ≠ .echoing) (hvisit : Visit h s (.halt s')) :
    FiresOnce scope site k s' := by
  obtain ⟨hs, hphase⟩ := hs
  cases hvisit with
  | nowhere | ended => exact firesOnce_finish hs.toFiredOnce
  | @held st s₁ hhere hjudge hchoice hopen =>
      have hplayer := player_of_judge hjudge
      have hquiet : Quiet s₁ (s₁.inPhase .choosing) := .of_events_eq rfl
      exact (firesOnce_judge hasks hs hjudge).quiet_of_place hquiet rfl rfl rfl rfl rfl rfl
        (.inr (by rwa [hplayer]))
  | @awaited st s₁ s₂ handle hhere hjudge hchoice hopen hrun =>
      obtain ⟨hran, hslots⟩ := firedOnce_run hasks hs.toFiredOnce hjudge hopen hrun
      have hawait : FiredOnce scope site k (s₂.await handle) := hran.quiet (.of_events_eq rfl) rfl
      exact hawait.of_empty hslots
  | choosing hend hopen =>
      have hquiet : Quiet s (s.inPhase .choosing) := .of_events_eq rfl
      exact hs.quiet_of_place hquiet rfl rfl rfl rfl rfl rfl (.inr hphase)

/-- Coming to a label keeps the invariant. -/
theorem firesOnce_enterAt {s : Scene σ ω} (hs : FiredOnce scope site k s) (name : String)
    (i : Nat) : FiresOnce scope site k ((s.remark (.entered name)).enterAt i) := by
  have hremark : Quiet s (s.remark (.entered name)) := .remark s _
  have hquiet : Quiet s ((s.remark (.entered name)).enterAt i) := hremark.trans (.of_events_eq rfl)
  exact (hs.quiet hquiet rfl).of_empty rfl

/-- Coming to no label keeps the invariant. -/
theorem firesOnce_missing {s : Scene σ ω} (hs : FiredOnce scope site k s) (name : String) :
    FiresOnce scope site k (s.remark (.missing name s.player.dialog)).finish :=
  firesOnce_finish (hs.quiet (.remark s _) rfl)

/-- Running from a place keeps the invariant. -/
theorem firesOnce_advance (hasks : h.AsksLog) {s : Scene σ ω} (hs : FiresOnce scope site k s)
    (hphase : s.player.phase ≠ .echoing) : FiresOnce scope site k (s.advance h) := by
  have hjump {s s' : Scene σ ω} {name : String}
      (hs : FiresOnce scope site k s ∧ s.player.phase ≠ .echoing)
      (hvisit : Visit h s (.jump name s')) : FiredOnce scope site k s' := by
    cases hvisit with
    | jumped hhere hjudge hchoice hopen hrun =>
        exact (firedOnce_run hasks hs.1.toFiredOnce hjudge hopen hrun).1
  have hrunning {s' : Scene σ ω} (hs : FiresOnce scope site k s')
      (hphase : s'.player.phase ≠ .echoing) : FiresOnce scope site k (s'.inPhase .running) :=
    hs.quiet_of_place (.of_events_eq rfl) rfl rfl rfl rfl rfl rfl (.inr hphase)
  refine Activation.induct
    (P := fun s => FiresOnce scope site k s ∧ s.player.phase ≠ .echoing)
    (Q := FiresOnce scope site k) (firesOnce_of_visit hasks) (firesOnce_of_halt hasks)
    ?_ ?_ ?_ (activation_advance s) ⟨hrunning hs hphase, by simp⟩
  · intro s s' name hs hvisit _
    exact firesOnce_missing (hjump hs hvisit) name
  · intro s s' name i hs hvisit _
    exact ⟨hrunning (firesOnce_enterAt (hjump hs hvisit) name i) (by simp), by simp⟩
  · intro s s' name i hs hvisit _
    have hentered := hrunning (firesOnce_enterAt (hjump hs hvisit) name i) (by simp)
    exact hentered.quiet_of_place (.remark _ _) rfl rfl rfl rfl rfl rfl (.inr (by simp))

/-! ### Operations -/

/-- Going to a label keeps the invariant. -/
theorem firesOnce_goTo (hasks : h.AsksLog) {s : Scene σ ω} (hs : FiredOnce scope site k s)
    (name : String) : FiresOnce scope site k (s.goTo h name) := by
  cases hfind : s.player.script.findLabel? name with
  | none =>
      rw [goTo_of_missing hfind]
      exact firesOnce_missing hs name
  | some i =>
      rw [goTo_of_findLabel? hfind]
      exact firesOnce_advance hasks (firesOnce_enterAt hs name i) (by simp)

/-- Starting a dialog from its source keeps what holds when the source has been read. -/
theorem firesOnce_startSource (hasks : h.AsksLog) {s : Scene σ ω} {source : String}
    (hs : FiresOnce scope site k (s.reading source)) (actor dialog label : String) :
    FiresOnce scope site k (s.startSource h actor dialog label source).2 := by
  cases hread : Script.read source with
  | error e =>
      rw [startSource_of_error hread]
      exact hs
  | ok script =>
      rw [startSource_of_ok hread]
      refine firesOnce_goTo hasks (hs.toFiredOnce.quiet (quiet_opened s ..) ?_) label
      rw [player_opened, player_reading]

/-- Starting a dialog keeps what its forgetting of the last session keeps. -/
theorem firesOnce_start (hasks : h.AsksLog) {s : Scene σ ω} {op : Operation}
    (hs : FiredOnce scope site k s.reset) (hop : op.isStart = true) :
    FiresOnce scope site k (s.apply h op) := by
  have hslots : s.reset.player.slots = .empty := by rw [player_reset, Player.dismissed]
  have hreading (source : String) : FiresOnce scope site k (s.reading source) := by
    refine (hs.quiet (quiet_reading s source) ?_).of_empty ?_ <;>
      rw [player_reading, ← player_reset]
    exact hslots
  cases op with
  | start actor dialog label =>
      change FiresOnce scope site k (s.start h actor dialog label).2
      rw [start]
      split
      · exact hs.of_empty hslots
      · exact firesOnce_startSource hasks (hreading _) actor dialog label
  | startSource actor dialog label source =>
      exact firesOnce_startSource hasks (hreading source) actor dialog label
  | _ => simp [Operation.isStart] at hop

/-- Picking a choice keeps the invariant. -/
theorem firesOnce_choose (hasks : h.AsksLog) {s : Scene σ ω} (hs : FiresOnce scope site k s)
    (choice : Nat) : FiresOnce scope site k (s.choose h choice) := by
  rcases choose_cases h s choice with (hsame | ⟨r, hsame⟩) |
    ⟨hphase, j, i, st, number, text, target, hslot, hst, hchoice, hpicked⟩
  · rw [hsame]
    exact hs
  · rw [hsame]
    exact hs.quiet_of_place (.remark s r) rfl rfl rfl rfl rfl rfl (Decidable.em _)
  · -- the choice was accepted when it was offered, and nothing has fired since
    have hused : FiredOnce scope site k (s.use st) := by
      have hevents : (s.use st).events =
          s.events ++ [] ++ [.used s.player.actor s.player.dialog st] := by
        rw [List.append_nil]
        exact events_use s st
      refine firedOnce_used hs.toFiredOnce (by simp) hevents rfl fun hshow hmarks => ?_
      · exact hs.offered (by simp [hphase]) hshow j i st hslot hst hmarks
    rw [hpicked]
    split
    · refine { toFiredOnce := hused.quiet (quiet_echo _ text target) rfl, offered := ?_ }
      intro hechoing
      exact absurd rfl hechoing
    · exact firesOnce_goTo hasks hused target

/-- Updating a player keeps the invariant. -/
theorem firesOnce_update (hasks : h.AsksLog) {s : Scene σ ω} (hs : FiresOnce scope site k s) :
    FiresOnce scope site k (s.update h) := by
  rw [update]
  split
  · exact hs
  · exact hs
  · exact firesOnce_advance hasks hs (by simp [*])
  · exact firesOnce_advance hasks hs (by simp [*])
  · rename_i hphase
    rcases hpoll : s.pollWait h with ⟨_ | _, s'⟩ <;> have hplayer := player_pollWait hpoll <;>
      dsimp only at hplayer ⊢
    · exact hs.quiet_of_place (quiet_pollWait hpoll) (by rw [hplayer]) (by rw [hplayer])
        (by rw [hplayer]) (by rw [hplayer]) (by rw [hplayer]) (by rw [hplayer])
        (.inr (by simp [hphase]))
    · have hpolled : Quiet s s'.step := (quiet_pollWait hpoll).trans (.of_events_eq rfl)
      refine firesOnce_advance hasks (hs.quiet_of_place hpolled ?_ ?_ ?_ ?_ ?_ ?_ ?_) ?_ <;>
        rw [player_step, hplayer]
      · exact .inr (by simp [hphase])
      · simp [hphase]
  · rename_i hphase
    rcases hpoll : s.pollWait h with ⟨_ | _, s'⟩ <;> have hplayer := player_pollWait hpoll <;>
      dsimp only at hplayer ⊢
    · refine hs.quiet_of_place (quiet_pollWait hpoll) ?_ ?_ ?_ ?_ ?_ ?_ (.inl ?_) <;> rw [hplayer]
      exact hphase
    · have hpolled := hs.toFiredOnce.quiet (quiet_pollWait hpoll) (by rw [hplayer])
      refine firesOnce_goTo hasks ?_ _
      exact hpolled.quiet (.of_events_eq rfl) rfl

/-- Every operation keeps the invariant, unless it replaces the log or starts a dialog and so
forgets the scope. -/
theorem firesOnce_apply (hasks : h.AsksLog) {s : Scene σ ω} (hs : FiresOnce scope site k s)
    {op : Operation} (hlog : ∀ log, op ≠ .setLog log)
    (hforget : scope ≠ .tempOnce ∨ op.isStart = false) :
    FiresOnce scope site k (s.apply h op) := by
  have hstart (hop : op.isStart = true) : FiresOnce scope site k (s.apply h op) := by
    have hscope : scope ≠ .tempOnce := hforget.resolve_right (by simp [hop])
    refine firesOnce_start hasks (hs.toFiredOnce.quiet (quiet_reset s) ?_) hop
    rw [player_reset]
    exact Log.contains_purgeTempOnce hscope
  cases op with
  | start actor dialog label => exact hstart rfl
  | startSource actor dialog label source => exact hstart rfl
  | update => exact firesOnce_update hasks hs
  | choose choice => exact firesOnce_choose hasks hs choice
  | goTo label => exact firesOnce_goTo hasks hs.toFiredOnce label
  | finish => exact firesOnce_finish hs.toFiredOnce
  | setLog log => exact absurd rfl (hlog log)

/-! ### Runs -/

/-- Over a run that does not replace the log, a scope that is not forgotten fires at most once at
each site. -/
theorem countP_fires_le_one (hasks : h.AsksLog) (loader : Loader) (config : Config) (log : Log)
    (host : σ) {ops : List Operation} (hlog : ∀ log, .setLog log ∉ ops)
    (hscope : scope ≠ .tempOnce) :
    ((fresh loader config log host).after h ops).events.countP (Event.fires scope site) ≤ 1 := by
  have hfresh : FiresOnce scope site 0 (fresh loader config log host : Scene σ ω) :=
    (FiredOnce.refl (fresh loader config log host : Scene σ ω)).of_empty rfl
  have hafter : FiresOnce scope site 0 ((fresh loader config log host).after h ops) := by
    refine after_induct (P := FiresOnce scope site 0) (fun hop hs => ?_) hfresh
    refine firesOnce_apply hasks hs ?_ (.inl hscope)
    rintro log rfl
    exact hlog log hop
  exact hafter.count

/-- Over operations of which only the first may start a dialog, a scope that fires when it is shown
fires at most once at each site. -/
theorem countP_fires_during_le_one (hasks : h.AsksLog) (s : Scene σ ω) {ops : List Operation}
    (hlog : ∀ log, .setLog log ∉ ops) (hstart : ∀ op ∈ ops.tail, op.isStart = false)
    (hshow : scope.onShow = true) :
    (s.during h ops).countP (Event.fires scope site) ≤ 1 := by
  have hoffered {s' : Scene σ ω} (hs' : FiredOnce scope site s.events.length s') :
      FiresOnce scope site s.events.length s' :=
    { toFiredOnce := hs', offered := fun _ hnot => by rw [hshow] at hnot; cases hnot }
  have hs := hoffered (.refl s)
  cases ops with
  | nil => exact hs.count
  | cons op ops =>
      have hne {op' : Operation} (hop : op' ∈ op :: ops) (log : Log) : op' ≠ .setLog log := by
        rintro rfl
        exact hlog log hop
      have hfirst : FiresOnce scope site s.events.length (s.apply h op) := by
        cases hop : op.isStart with
        | false => exact firesOnce_apply hasks hs (hne List.mem_cons_self) (.inr hop)
        | true => exact firesOnce_start hasks (.of_quiet (quiet_reset s)) hop
      have hrest : FiresOnce scope site s.events.length ((s.apply h op).after h ops) := by
        refine after_induct (P := FiresOnce scope site s.events.length) (fun hop hs => ?_) hfirst
        exact firesOnce_apply hasks hs (hne (List.mem_cons_of_mem op hop)) (.inr (hstart _ hop))
      exact hrest.count

/-- Over every run of a player whose log is not replaced, of a host that asks the log, for each
site: a statement under `once` is used at most once, by whatever actors a statement under `onceever`
is used at most once, a statement under `showonce` is accepted at most once, and a statement under
`temponce` is accepted at most once from one start of a dialog to the next. -/
theorem once_family_fires_at_most_once (hasks : h.AsksLog) (loader : Loader) (config : Config)
    (log : Log) (host : σ) {ops : List Operation} (hlog : ∀ log, .setLog log ∉ ops) :
    let first : Scene σ ω := fresh loader config log host
    let events := (first.after h ops).events
    (∀ actor dialog line,
      events.countP (Event.isUse .once (decide <| · = actor) dialog line) ≤ 1) ∧
    (∀ dialog line, events.countP (Event.isUse .onceEver (fun _ => true) dialog line) ≤ 1) ∧
    (∀ actor dialog line, events.countP (Event.isAcceptance .showOnce actor dialog line) ≤ 1) ∧
    ∀ before session rest, ops = before ++ session ++ rest →
      (∀ op ∈ session.tail, op.isStart = false) → ∀ actor dialog line,
        ((first.after h before).during h session).countP
          (Event.isAcceptance .tempOnce actor dialog line) ≤ 1 := by
  intro first events
  refine ⟨?_, ?_, ?_, ?_⟩
  · intro actor dialog line
    rw [Event.isUse_once]
    exact countP_fires_le_one hasks loader config log host hlog (by simp)
  · intro dialog line
    rw [Event.isUse_onceEver]
    exact countP_fires_le_one hasks loader config log host hlog (by simp)
  · intro actor dialog line
    rw [Event.isAcceptance_eq_fires rfl]
    exact countP_fires_le_one hasks loader config log host hlog (by simp)
  · rintro before session rest rfl hstart actor dialog line
    rw [Event.isAcceptance_eq_fires rfl]
    refine countP_fires_during_le_one hasks _ (fun log hmem => hlog log ?_) hstart rfl
    exact List.mem_append_left rest (List.mem_append_right before hmem)

/-- A dialog that jumps back to its only label, started twice. -/
def restarts : List Operation :=
  let source := ":s\n!x [once]\n!y [temponce]\n-> s"
  [.startSource "a" "d" "s" source, .update, .startSource "a" "d" "s" source]

theorem once_family_of_restarts :
    Host.instant.AsksLog ∧ (∀ log, .setLog log ∉ restarts) ∧
      ∃ events : List (Event Unit),
        events = ((fresh (fun _ => .ok "") { maxJumps := 2 } {} ()).after Host.instant
          restarts).events ∧
        events.countP (Event.isUse .once (decide <| · = "a") "d" 2) = 1 ∧
        events.countP (Event.isAcceptance .tempOnce "a" "d" 3) = 2 ∧
        ∀ actor dialog line,
          events.countP (Event.isUse .once (decide <| · = actor) dialog line) ≤ 1 := by
  have hlog : ∀ log, .setLog log ∉ restarts := by
    intro log
    simp [restarts]
  refine ⟨Host.instant_asksLog, hlog, _, rfl, by decide +kernel, by decide +kernel, ?_⟩
  exact (once_family_fires_at_most_once Host.instant_asksLog _ _ _ _ hlog).1

end Scene

end DialogScript
