import DialogScript.Proofs.Player.Exchange

/-!
# What running does not depend on

Players that differ in what they have waited for last, in whether chosen texts are said, and in the
label that was to follow a chosen text run alike: they make the same calls and come to the same
place. The override of a player is not read either; it is what the last call that sets it says, so
players that make the same calls keep to the same override.

## Main definitions

* `Walker.letGo`: a place without what has been waited for
* `overriding`: the override that calls leave
* `Scene.Alike`: players that run alike

## Main results

* `Stage.walk_congr`: a walk does not depend on what has been waited for
* `Scene.overrides_advance`: the override after an activation is what its calls leave
* `Scene.Alike.goTo`: players that are alike come to a label alike and run alike from there
-/

namespace DialogScript

variable {σ ω : Type}

/-! ### Waits -/

namespace Walker

/-- The place without what has been waited for. -/
def letGo (w : Walker σ ω) : Walker σ ω := { w with wait := none }

/-- What a visit leads to, without what is waited for. -/
def Next.letGo : Next σ ω → Next σ ω
  | on w => .on w.letGo
  | jump name w => .jump name w.letGo
  | stop phase w => .stop phase w.letGo

theorem eq_of_letGo {v w : Walker σ ω} (hvw : v.letGo = w.letGo) : v = { w with wait := v.wait } :=
  congrArg (fun u : Walker σ ω => { u with wait := v.wait }) hvw

end Walker

namespace Stage

variable {t : Stage} {h : Host σ ω}

theorem meet_wait (st : Statement) (w : Walker σ ω) (wait : Option ω) :
    (t.meet h st { w with wait }).map id Walker.Next.letGo =
      (t.meet h st w).map id Walker.Next.letGo := by
  rw [meet, meet]
  cases st.instruction.request with
  | offer number => rfl
  | effect e =>
      dsimp only
      split
      · cases e <;> rfl
      · rfl
  | delay d =>
      dsimp only
      split <;> rfl

/-- A visit does not depend on what has been waited for. -/
theorem visit_wait (w : Walker σ ω) (wait : Option ω) :
    (t.visit h { w with wait }).map id Walker.Next.letGo =
      (t.visit h w).map id Walker.Next.letGo := by
  have hplace : t.place? { w with wait } = t.place? w := rfl
  rw [visit, visit, hplace]
  rcases t.place? w with _ | ⟨i, l⟩
  · rfl
  dsimp only
  cases l.statements[w.cursor]? with
  | none =>
      dsimp only
      split
      · rfl
      · split <;> rfl
  | some st =>
      dsimp only
      rcases t.answers h w.log st.conditions w.host with ⟨_ | _, asked, host⟩
      · rfl
      · have hmeet := meet_wait (t := t) (h := h) st
          ({ w with host }.record t st Scope.onShow) wait
        obtain ⟨hcalls, hnext⟩ := Prod.ext_iff.mp hmeet
        exact Prod.ext (congrArg (asked ++ ·) hcalls) hnext

/-- Places alike but for what has been waited for have visits alike but for it. -/
theorem visit_congr {v w : Walker σ ω} {calls : List (Call ω)} {next : Walker.Next σ ω}
    (hvw : v.letGo = w.letGo) (hvisit : t.visit h w = (calls, next)) :
    ∃ next', t.visit h v = (calls, next') ∧ next'.letGo = next.letGo := by
  have hsame := visit_wait (t := t) (h := h) w v.wait
  rw [← Walker.eq_of_letGo hvw, hvisit] at hsame
  obtain ⟨hcalls, hnext⟩ := Prod.ext_iff.mp hsame
  exact ⟨(t.visit h v).2, Prod.ext hcalls rfl, hnext⟩

theorem visit_on_congr {v w w₁ : Walker σ ω} {calls : List (Call ω)} (hvw : v.letGo = w.letGo)
    (hvisit : t.visit h w = (calls, .on w₁)) :
    ∃ v₁, t.visit h v = (calls, .on v₁) ∧ v₁.letGo = w₁.letGo := by
  obtain ⟨next, hvisit', hnext⟩ := visit_congr hvw hvisit
  cases next with
  | on v₁ => exact ⟨v₁, hvisit', Walker.Next.on.inj hnext⟩
  | jump | stop => cases hnext

theorem visit_jump_congr {v w w₁ : Walker σ ω} {calls : List (Call ω)} {name : String}
    (hvw : v.letGo = w.letGo) (hvisit : t.visit h w = (calls, .jump name w₁)) :
    ∃ v₁, t.visit h v = (calls, .jump name v₁) ∧ v₁.letGo = w₁.letGo := by
  obtain ⟨next, hvisit', hnext⟩ := visit_congr hvw hvisit
  cases next with
  | jump name' v₁ =>
      obtain ⟨rfl, hwalker⟩ := Walker.Next.jump.inj hnext
      exact ⟨v₁, hvisit', hwalker⟩
  | on | stop => cases hnext

theorem startOf_congr {v w : Walker σ ω} (hvw : v.letGo = w.letGo) (i : Nat) :
    (v.startOf i).letGo = (w.startOf i).letGo := by
  change v.letGo.startOf i = w.letGo.startOf i
  rw [hvw]

theorem ended_congr {v w : Walker σ ω} (hvw : v.letGo = w.letGo) :
    v.ended.letGo = w.ended.letGo := by
  change v.letGo.ended = w.letGo.ended
  rw [hvw]

/-- A walk does not depend on what has been waited for. -/
theorem walk_congr {n : Nat} {v w w' : Walker σ ω} {calls : List (Call ω)} {phase : Phase}
    (hvw : v.letGo = w.letGo) (hwalk : t.Walk h n w calls phase w') :
    ∃ v', t.Walk h n v calls phase v' ∧ v'.letGo = w'.letGo := by
  induction hwalk generalizing v with
  | stop hvisit =>
      obtain ⟨next, hvisit', hnext⟩ := visit_congr hvw hvisit
      cases next with
      | stop phase' v' =>
          obtain ⟨rfl, hwalker⟩ := Walker.Next.stop.inj hnext
          exact ⟨v', .stop hvisit', hwalker⟩
      | on | jump => cases hnext
  | on hvisit _ ih =>
      obtain ⟨v₁, hvisit', hv₁⟩ := visit_on_congr hvw hvisit
      obtain ⟨v', hrest, hv'⟩ := ih hv₁
      exact ⟨v', .on hvisit' hrest, hv'⟩
  | missed hvisit hmissing =>
      obtain ⟨v₁, hvisit', hv₁⟩ := visit_jump_congr hvw hvisit
      exact ⟨v₁.ended, .missed hvisit' hmissing, ended_congr hv₁⟩
  | spent hvisit hlast =>
      obtain ⟨v₁, hvisit', hv₁⟩ := visit_jump_congr hvw hvisit
      exact ⟨_, .spent hvisit' hlast, startOf_congr hv₁ _⟩
  | jump hvisit hlast _ ih =>
      obtain ⟨v₁, hvisit', hv₁⟩ := visit_jump_congr hvw hvisit
      obtain ⟨v', hrest, hv'⟩ := ih (startOf_congr hv₁ _)
      exact ⟨v', .jump hvisit' hlast hrest, hv'⟩

end Stage

/-! ### Overrides -/

/-- The override that a call sets. -/
def Call.override? : Call ω → Option String
  | effect (.override label) => some label
  | _ => none

/-- The override that calls leave. -/
def overriding (calls : List (Call ω)) (label : String) : String :=
  calls.foldl (fun label c => c.override?.getD label) label

theorem overriding_append (calls calls' : List (Call ω)) (label : String) :
    overriding (calls ++ calls') label = overriding calls' (overriding calls label) :=
  List.foldl_append

theorem overriding_eq_self {calls : List (Call ω)} (hcalls : ∀ c ∈ calls, c.override? = none)
    (label : String) : overriding calls label = label := by
  induction calls with
  | nil => rfl
  | cons c calls ih =>
      obtain ⟨hc, hcalls⟩ := List.forall_mem_cons.mp hcalls
      rw [overriding, List.foldl_cons, hc]
      exact ih hcalls

namespace Scene

variable {h : Host σ ω}

/-- From one scene to another the override has become what the calls in between leave. -/
def Overrides (s s' : Scene σ ω) : Prop :=
  ∃ calls, s'.calls = s.calls ++ calls ∧ s'.player.override = overriding calls s.player.override

namespace Overrides

theorem trans {s s₁ s' : Scene σ ω} (h₁ : Overrides s s₁) (h₂ : Overrides s₁ s') :
    Overrides s s' := by
  obtain ⟨calls₁, hcalls₁, hoverride₁⟩ := h₁
  obtain ⟨calls₂, hcalls₂, hoverride₂⟩ := h₂
  refine ⟨calls₁ ++ calls₂, by rw [hcalls₂, hcalls₁, List.append_assoc], ?_⟩
  rw [overriding_append, hoverride₂, hoverride₁]

/-- Without a call the override stays. -/
theorem of_silent {s s' : Scene σ ω} (hcalls : s'.calls = s.calls)
    (hoverride : s'.player.override = s.player.override) : Overrides s s' :=
  ⟨[], by rw [hcalls, List.append_nil], hoverride⟩

end Overrides

theorem overrides_judge {s s₁ : Scene σ ω} {st : Statement} {accepted : Bool}
    (hjudge : s.judge h st = (accepted, s₁)) : Overrides s s₁ := by
  obtain ⟨more, haside, hevents⟩ := asides_judge hjudge
  have hplayer := player_of_judge hjudge
  have hcalls := congrArg (List.filterMap Event.call?) hevents
  rw [List.filterMap_append, List.filterMap_append] at hcalls
  refine ⟨more.filterMap Event.call?, hcalls.trans (List.append_nil _), ?_⟩
  rw [overriding_eq_self, hplayer]
  intro c hc
  obtain ⟨e, he, hec⟩ := List.mem_filterMap.mp hc
  have haside := haside e he
  cases e with
  | call c' =>
      obtain rfl := Option.some.inj hec
      cases c' with
      | effect => cases haside
      | delay | poll | code | scope => rfl
  | remark | judged | used => cases hec

theorem overrides_run {s s₁ : Scene σ ω} {st : Statement} {flow : Flow ω}
    (hchoice : st.choice? = none) (hrun : s.run h st = (flow, s₁)) : Overrides s s₁ := by
  have hplayer := player_of_run hrun
  rcases request_of_choice?_eq_none hchoice with ⟨e, hrequest⟩ | ⟨d, hrequest⟩
  · obtain ⟨hcalls, -, -⟩ := run_refines_effect h s hrequest
    rw [hrun] at hcalls
    refine ⟨[.effect e], hcalls, ?_⟩
    rw [hplayer]
    cases hinstruction : st.instruction <;> rw [hinstruction] at hrequest <;> cases hrequest <;> rfl
  · obtain ⟨hcalls, -, -⟩ := run_refines_delay h s hrequest
    rw [hrun] at hcalls
    refine ⟨[_], hcalls, ?_⟩
    rw [hplayer]
    cases hinstruction : st.instruction <;> rw [hinstruction] at hrequest <;> cases hrequest <;> rfl

theorem overrides_offer (s : Scene σ ω) (number : Int32) : Overrides s (s.offer number) := by
  obtain ⟨slots, hplayer⟩ := player_offer s number
  exact .of_silent (calls_offer s number) (by rw [hplayer])

theorem overrides_finish (s : Scene σ ω) : Overrides s s.finish :=
  .of_silent (calls_finish s) (by rw [player_finish])

/-- After a visit the override is what its calls leave. -/
theorem overrides_of_visit {s : Scene σ ω} {o : Outcome σ ω} (hvisit : Visit h s o) :
    Overrides s o.scene := by
  have hmoved {s s' : Scene σ ω} (hcalls : s'.calls = s.calls)
      (hoverride : s'.player.override = s.player.override) : Overrides s s' :=
    .of_silent hcalls hoverride
  cases hvisit with
  | nowhere | ended => exact overrides_finish s
  | rejected _ hjudge | held _ hjudge => exact (overrides_judge hjudge).trans (hmoved rfl rfl)
  | offered _ hjudge =>
      exact ((overrides_judge hjudge).trans (overrides_offer _ _)).trans (hmoved rfl rfl)
  | ran _ hjudge hchoice _ hrun | awaited _ hjudge hchoice _ hrun =>
      exact ((overrides_judge hjudge).trans (overrides_run hchoice hrun)).trans (hmoved rfl rfl)
  | jumped _ hjudge hchoice _ hrun =>
      exact (overrides_judge hjudge).trans (overrides_run hchoice hrun)
  | choosing | through => exact hmoved rfl rfl

theorem overrides_remark (s : Scene σ ω) (r : Remark) : Overrides s (s.remark r) :=
  .of_silent (calls_remark s r) rfl

/-- After an activation the override is what its calls leave. -/
theorem overrides_advance (h : Host σ ω) (s : Scene σ ω) : Overrides s (s.advance h) := by
  have hentered {s' : Scene σ ω} (hs : Overrides s s') (name : String) (i : Nat) :
      Overrides s (((s'.remark (.entered name)).enterAt i).inPhase .running) :=
    (hs.trans (overrides_remark s' _)).trans (.of_silent rfl rfl)
  refine Activation.induct (P := Overrides s) (Q := Overrides s)
    (fun hs hvisit => hs.trans (overrides_of_visit hvisit))
    (fun hs hvisit => hs.trans (overrides_of_visit hvisit)) ?_ ?_ ?_ (activation_advance s)
    (.of_silent rfl rfl)
  · intro s₁ s₂ name hs hvisit _
    exact ((hs.trans (overrides_of_visit hvisit)).trans (overrides_remark _ _)).trans
      (overrides_finish _)
  · intro s₁ s₂ name i hs hvisit _
    exact hentered (hs.trans (overrides_of_visit hvisit)) name i
  · intro s₁ s₂ name i hs hvisit _
    exact (hentered (hs.trans (overrides_of_visit hvisit)) name i).trans (overrides_remark _ _)

/-! ### Players that run alike -/

theorem stage_advance (h : Host σ ω) (s : Scene σ ω) : (s.advance h).stage = s.stage := by
  have hvisited {s₁ : Scene σ ω} {o : Outcome σ ω} (hs : s₁.stage = s.stage)
      (hvisit : Visit h s₁ o) : o.scene.stage = s.stage := (visit_refines hvisit).1.trans hs
  refine Activation.induct (P := fun s' => s'.stage = s.stage) (Q := fun s' => s'.stage = s.stage)
    hvisited hvisited ?_ ?_ ?_ (activation_advance s) rfl
  · exact fun hs hvisit _ => (stage_finish _).trans (hvisited hs hvisit)
  · exact fun hs hvisit _ => hvisited hs hvisit
  · exact fun hs hvisit _ => hvisited hs hvisit

/-- Two players that differ at most in what they have waited for last, in whether chosen texts are
said, in the label that was to follow one, and in their phase. -/
structure Alike (s t : Scene σ ω) : Prop where
  stage : t.stage = s.stage
  walker : t.walker.letGo = s.walker.letGo
  config : t.player.config = s.player.config
  override : t.player.override = s.player.override

/-- Two runs make the same calls and leave players that are alike, in the same phase. -/
def RunAlike (s s' t t' : Scene σ ω) : Prop :=
  Alike s' t' ∧ t'.player.phase = s'.player.phase ∧
    ∃ calls, s'.calls = s.calls ++ calls ∧ t'.calls = t.calls ++ calls

/-- Players that are alike run alike. -/
theorem Alike.advance {s t : Scene σ ω} (hst : Alike s t) :
    RunAlike s (s.advance h) t (t.advance h) := by
  obtain ⟨calls, hcalls, hwalk⟩ := walk_advance h s
  obtain ⟨calls', hcalls', hwalk'⟩ := walk_advance h t
  -- the walk of the one is a walk of the other, so it is the only one
  obtain ⟨v', hsame, hwalker⟩ := Stage.walk_congr hst.walker hwalk
  rw [← hst.stage, ← hst.config] at hsame
  obtain ⟨rfl, hphase, rfl⟩ := hwalk'.unique hsame
  obtain ⟨-, hconfig, -⟩ := kept_advance h s
  obtain ⟨-, hconfig', -⟩ := kept_advance h t
  obtain ⟨more, hmore, hoverride⟩ := overrides_advance h s
  obtain ⟨more', hmore', hoverride'⟩ := overrides_advance h t
  obtain rfl := List.append_cancel_left (hcalls.symm.trans hmore)
  obtain rfl := List.append_cancel_left (hcalls'.symm.trans hmore')
  refine ⟨⟨?_, hwalker, ?_, ?_⟩, hphase.symm, _, hcalls, hcalls'⟩
  · rw [stage_advance, stage_advance, hst.stage]
  · rw [hconfig', hst.config, hconfig]
  · rw [hoverride', hoverride, hst.override]

/-- Players that are alike come to a label alike and run alike from there. -/
theorem Alike.goTo {s t : Scene σ ω} (hst : Alike s t) (name : String) :
    RunAlike s (s.goTo h name) t (t.goTo h name) := by
  have hscript : t.player.script = s.player.script := congrArg Stage.script hst.stage
  cases hfind : s.player.script.findLabel? name with
  | some i =>
      rw [goTo_of_findLabel? hfind, goTo_of_findLabel? (hscript ▸ hfind)]
      have hentered : Alike ((s.remark (.entered name)).enterAt i)
          ((t.remark (.entered name)).enterAt i) :=
        ⟨hst.stage, Stage.startOf_congr hst.walker i, hst.config, hst.override⟩
      obtain ⟨halike, hphase, calls, hcalls, hcalls'⟩ := hentered.advance (h := h)
      refine ⟨halike, hphase, calls, hcalls.trans ?_, hcalls'.trans ?_⟩
      · exact congrArg (· ++ calls) (calls_remark s _)
      · exact congrArg (· ++ calls) (calls_remark t _)
  | none =>
      rw [goTo_of_missing hfind, goTo_of_missing (hscript ▸ hfind)]
      refine ⟨⟨?_, ?_, ?_, ?_⟩, ?_, [], ?_, ?_⟩
      · rw [stage_finish, stage_finish]
        exact hst.stage
      · rw [walker_finish, walker_finish]
        exact Stage.ended_congr hst.walker
      · rw [player_finish, player_finish]
        exact hst.config
      · rw [player_finish, player_finish]
        exact hst.override
      · rw [player_finish, player_finish]
      · rw [calls_finish, calls_remark, List.append_nil]
      · rw [calls_finish, calls_remark, List.append_nil]

end Scene

end DialogScript
