import DialogScript.Proofs.Player.Operation

/-!
# What happens in a run

A transcript only grows. Most parts of a session append calls of the host and remarks to it, many of
them only asides: remarks and the answers to conditions. The events that matter to the condition log
come from two places, the judging and the using of a statement.

## Main definitions

* `Scene.Appends`: parts of a session that append only events of a kind
* `Event.isAside`, `Event.isPlain`: remarks and answers to conditions, and remarks and all calls
* `Scene.Quiet`: parts of a session that append only calls and remarks
* `Scene.during`: the events of a run

## Main results

* `Scene.asides_askAll`, `Scene.asides_offer`, `Scene.asides_finish`, `Scene.asides_enter`
* `Scene.quiet_follow`: running an instruction appends only calls and remarks
* `Scene.events_judge`, `Scene.events_run`: what judging and running a statement append
-/

namespace DialogScript

/-- The call is a poll. -/
def Call.isPoll {ω : Type} : Call ω → Bool
  | poll .. => true
  | _ => false

namespace Event

variable {ω : Type}

/-- A call of the host or a remark. -/
def isPlain : Event ω → Bool
  | call _ | remark _ => true
  | _ => false

/-- A remark or the answer to a condition. -/
def isAside : Event ω → Bool
  | remark _ | call (.code ..) | call (.scope ..) => true
  | _ => false

theorem isPlain_of_isAside {e : Event ω} (he : e.isAside = true) : e.isPlain = true := by
  cases e with
  | call | remark => rfl
  | judged | used => simp [isAside] at he

end Event

namespace Scene

variable {σ ω : Type} {h : Host σ ω}

/-- The events that a run adds. -/
def during (h : Host σ ω) (s : Scene σ ω) (ops : List Operation) : List (Event ω) :=
  (s.after h ops).events.drop s.events.length

@[simp] theorem events_note (s : Scene σ ω) (e : Event ω) :
    (s.note e).events = s.events ++ [e] := by
  simp [events, note]

@[simp] theorem events_remark (s : Scene σ ω) (r : Remark) :
    (s.remark r).events = s.events ++ [.remark r] := events_note s _

/-! ### Parts that append events of a kind -/

/-- Only events of a kind come behind the events of a scene. -/
def Appends (p : Event ω → Bool) (s s' : Scene σ ω) : Prop :=
  ∃ more, s'.events = s.events ++ more ∧ ∀ e ∈ more, p e = true

namespace Appends

variable {p q : Event ω → Bool}

theorem refl (s : Scene σ ω) : Appends p s s := ⟨[], by simp, by simp⟩

theorem trans {s s₁ s₂ : Scene σ ω} (h₁ : Appends p s s₁) (h₂ : Appends p s₁ s₂) :
    Appends p s s₂ := by
  obtain ⟨more₁, hevents₁, hkind₁⟩ := h₁
  obtain ⟨more₂, hevents₂, hkind₂⟩ := h₂
  refine ⟨more₁ ++ more₂, by rw [hevents₂, hevents₁, List.append_assoc], fun e he => ?_⟩
  rcases List.mem_append.mp he with he | he
  · exact hkind₁ e he
  · exact hkind₂ e he

theorem of_events_eq {s s' : Scene σ ω} (h : s'.events = s.events) : Appends p s s' :=
  ⟨[], by simp [h], by simp⟩

theorem note (s : Scene σ ω) {e : Event ω} (he : p e = true) : Appends p s (s.note e) :=
  ⟨[e], events_note s e, by simpa using he⟩

theorem mono (hpq : ∀ e, p e = true → q e = true) {s s' : Scene σ ω} (h : Appends p s s') :
    Appends q s s' := by
  obtain ⟨more, hevents, hkind⟩ := h
  exact ⟨more, hevents, fun e he => hpq e (hkind e he)⟩

end Appends

/-! ### Asides -/

theorem asides_remark (s : Scene σ ω) (r : Remark) : Appends Event.isAside s (s.remark r) :=
  .note s rfl

theorem asides_ask (s : Scene σ ω) (c : Condition) : Appends Event.isAside s (s.ask h c).2 := by
  unfold ask
  split
  · exact .note { s with host := _ } rfl
  · exact .note { s with host := _ } rfl

theorem asides_askAll (s : Scene σ ω) (cs : List Condition) :
    Appends Event.isAside s (s.askAll h cs).2 := by
  induction cs generalizing s with
  | nil => exact .refl s
  | cons c cs ih =>
      rw [askAll_cons]
      split
      · exact (asides_ask s c).trans (ih _)
      · exact asides_ask s c

theorem asides_offer (s : Scene σ ω) (number : Int32) :
    Appends Event.isAside s (s.offer number) := by
  rcases offer_cases s number with ⟨⟨r, hoffer⟩, -⟩ | ⟨k, -, -, -, hoffer⟩
  · rw [hoffer]
    exact asides_remark s r
  · rw [hoffer]
    exact .of_events_eq rfl

theorem asides_finish (s : Scene σ ω) : Appends Event.isAside s s.finish := by
  unfold finish
  split
  · exact .of_events_eq rfl
  · exact asides_remark s _

theorem asides_reset (s : Scene σ ω) : Appends Event.isAside s s.reset :=
  (asides_finish s).trans (.of_events_eq rfl)

theorem asides_enter {s s' : Scene σ ω} {name : String} {found : Bool}
    (henter : s.enter name = (found, s')) : Appends Event.isAside s s' := by
  cases found with
  | true =>
      obtain ⟨i, -, rfl⟩ := of_enter_true henter
      exact (asides_remark s _).trans (.of_events_eq rfl)
  | false =>
      obtain ⟨-, rfl⟩ := of_enter_false henter
      exact (asides_remark s _).trans (asides_finish _)

theorem asides_reading (s : Scene σ ω) (source : String) :
    Appends Event.isAside s.reset (s.reading source) :=
  reading_induct (P := Appends Event.isAside s.reset)
    (fun s' r hs => hs.trans (asides_remark s' r)) (.refl _) source

theorem asides_opened (s : Scene σ ω) (actor dialog label source : String) (script : Script) :
    Appends Event.isAside (s.reading source) (s.opened actor dialog label source script) := by
  unfold opened
  generalize s.reading source = s'
  exact (asides_remark s' (.started actor dialog label)).trans (.of_events_eq rfl)

/-! ### Quiet parts -/

/-- Only calls and remarks come behind the events of a scene. -/
def Quiet (s s' : Scene σ ω) : Prop :=
  ∃ more, s'.events = s.events ++ more ∧ ∀ e ∈ more, e.isPlain = true

theorem Appends.quiet {s s' : Scene σ ω} (h : Appends Event.isAside s s') : Quiet s s' :=
  Appends.mono (fun _ => Event.isPlain_of_isAside) h

namespace Quiet

theorem refl (s : Scene σ ω) : Quiet s s := Appends.refl s

theorem trans {s s₁ s₂ : Scene σ ω} (h₁ : Quiet s s₁) (h₂ : Quiet s₁ s₂) : Quiet s s₂ :=
  Appends.trans h₁ h₂

theorem of_events_eq {s s' : Scene σ ω} (h : s'.events = s.events) : Quiet s s' :=
  Appends.of_events_eq h

theorem note (s : Scene σ ω) {e : Event ω} (he : e.isPlain = true) : Quiet s (s.note e) :=
  Appends.note s he

theorem remark (s : Scene σ ω) (r : Remark) : Quiet s (s.remark r) := note s rfl

end Quiet

theorem quiet_finish (s : Scene σ ω) : Quiet s s.finish := (asides_finish s).quiet

theorem quiet_reset (s : Scene σ ω) : Quiet s s.reset := (asides_reset s).quiet

theorem quiet_reading (s : Scene σ ω) (source : String) : Quiet s.reset (s.reading source) :=
  (asides_reading s source).quiet

theorem quiet_opened (s : Scene σ ω) (actor dialog label source : String) (script : Script) :
    Quiet (s.reading source) (s.opened actor dialog label source script) :=
  (asides_opened s actor dialog label source script).quiet

/-- Picking a choice whose text is said begins to say it. -/
theorem events_echo (s : Scene σ ω) (text target : String) :
    ∃ handle, (s.echo h text target).player.wait = some handle ∧ (s.echo h text target).events =
      s.events ++ [.call (.delay (.say s.player.actor text) handle)] :=
  ⟨_, rfl, events_note { s with player := _, host := _ } _⟩

theorem quiet_echo (s : Scene σ ω) (text target : String) : Quiet s (s.echo h text target) := by
  obtain ⟨handle, -, hevents⟩ := events_echo (h := h) s text target
  exact ⟨_, hevents, by simp [Event.isPlain]⟩

/-- Polling appends one poll, of what the player waits for. -/
theorem events_pollWait {s s' : Scene σ ω} {ready : Bool} (hpoll : s.pollWait h = (ready, s')) :
    s'.events = s.events ++ s.player.wait.toList.map fun handle => .call (.poll handle ready) := by
  rw [pollWait] at hpoll
  split at hpoll
  · rename_i hwait
    obtain ⟨rfl, rfl⟩ := Prod.mk.inj hpoll
    simp [hwait]
  · rename_i handle hwait
    have hevents : (s.poll h handle).2.events =
        s.events ++ [.call (.poll handle (s.poll h handle).1)] :=
      events_note { s with host := _ } _
    rw [hwait]
    split at hpoll <;> rename_i hanswer <;> rw [hanswer] at hevents <;>
      obtain ⟨rfl, rfl⟩ := Prod.mk.inj hpoll <;> exact hevents

/-- The host answers the poll. -/
theorem host_pollWait {s s' : Scene σ ω} {ready : Bool} {handle : ω}
    (hpoll : s.pollWait h = (ready, s')) (hwait : s.player.wait = some handle) :
    h.poll handle s.host = (ready, s'.host) := by
  have hanswer : h.poll handle s.host = ((s.poll h handle).1, (s.poll h handle).2.host) := rfl
  rw [hanswer]
  rw [pollWait, hwait] at hpoll
  dsimp only at hpoll
  split at hpoll <;> rename_i hpolled <;> rw [hpolled] <;>
    obtain ⟨rfl, rfl⟩ := Prod.mk.inj hpoll <;> rfl

theorem quiet_pollWait {s s' : Scene σ ω} {ready : Bool} (hpoll : s.pollWait h = (ready, s')) :
    Quiet s s' := by
  refine ⟨_, events_pollWait hpoll, fun e he => ?_⟩
  obtain ⟨handle, -, rfl⟩ := List.mem_map.mp he
  rfl

/-! ### Judging and running a statement -/

/-- Judging a statement appends asides and then the verdict. -/
theorem asides_judge {s s₁ : Scene σ ω} {st : Statement} {accepted : Bool}
    (hjudge : s.judge h st = (accepted, s₁)) :
    ∃ more, (∀ e ∈ more, e.isAside = true) ∧ s₁.events =
      s.events ++ more ++ [.judged s.player.actor s.player.dialog st accepted] := by
  obtain ⟨more, hevents, haside⟩ := asides_askAll (h := h) s st.conditions
  have hplayer := player_askAll h s st.conditions
  refine ⟨more, haside, ?_⟩
  rw [judge] at hjudge
  rcases hask : s.askAll h st.conditions with ⟨a, s'⟩
  rw [hask] at hjudge hevents hplayer
  obtain ⟨rfl, rfl⟩ := Prod.mk.inj hjudge
  dsimp only at hevents hplayer ⊢
  rw [events_note, ← hevents]
  simp only [log, hplayer]
  rfl

/-- Judging a statement appends calls and remarks and then the verdict. -/
theorem events_judge {s s₁ : Scene σ ω} {st : Statement} {accepted : Bool}
    (hjudge : s.judge h st = (accepted, s₁)) :
    ∃ more, (∀ e ∈ more, e.isPlain = true) ∧ s₁.events =
      s.events ++ more ++ [.judged s.player.actor s.player.dialog st accepted] := by
  obtain ⟨more, haside, hevents⟩ := asides_judge hjudge
  exact ⟨more, fun e he => Event.isPlain_of_isAside (haside e he), hevents⟩

/-- The calls that an instruction makes, by what follows it: one at most, and it asks for the wait
or the jump that follows. -/
def FollowCalls : Flow ω → List (Call ω) → Prop
  | .next, calls => calls = [] ∨ ∃ e, calls = [.effect e] ∧ ∀ label, e ≠ .goto label
  | .wait handle, calls => ∃ d, calls = [.delay d handle]
  | .jump name, calls => calls = [.effect (.goto name)]

/-- An instruction makes the calls that what follows it asks for. -/
theorem events_follow (h : Host σ ω) (s : Scene σ ω) (i : Instruction) :
    ∃ calls, FollowCalls (s.follow h i).1 calls ∧
      (s.follow h i).2.events = s.events ++ calls.map .call := by
  cases i with
  | choice number text target => exact ⟨[], .inl rfl, (List.append_nil _).symm⟩
  | say | pause | waitWhile | waitFor =>
      exact ⟨[_], ⟨_, rfl⟩, events_note { s with host := _ } _⟩
  | goto label => exact ⟨[_], rfl, events_note { s with host := _ } _⟩
  | code | dialog | shutUp | allowObjects =>
      exact ⟨[_], .inr ⟨_, rfl, by simp⟩, events_note { s with host := _ } _⟩
  | parrot | override | limit =>
      exact ⟨[_], .inr ⟨_, rfl, by simp⟩, events_note { s with player := _, host := _ } _⟩

/-- Running a statement appends a remark, the calls that what follows asks for, and its use. -/
theorem calls_run {s s₁ : Scene σ ω} {st : Statement} {flow : Flow ω}
    (hrun : s.run h st = (flow, s₁)) :
    ∃ r calls, FollowCalls flow calls ∧ s₁.events =
      s.events ++ (.remark r :: calls.map .call) ++
        [.used s.player.actor s.player.dialog st] := by
  let r : Remark := .ran s.player.dialog st.instruction.name s.player.currentLabel?
  obtain ⟨calls, hcalls, hevents⟩ := events_follow h (s.remark r) st.instruction
  have hplayer := player_follow h (s.remark r) st.instruction
  have hflow : (s.run h st).1 = ((s.remark r).follow h st.instruction).1 := rfl
  have hscene : (s.run h st).2 = ((s.remark r).follow h st.instruction).2.use st := rfl
  rw [hrun] at hflow hscene
  dsimp only at hflow hscene
  refine ⟨r, calls, hflow ▸ hcalls, ?_⟩
  rw [events_remark, List.append_assoc] at hevents
  rw [hscene, use, events_note, hplayer, Player.obey_actor, Player.obey_dialog]
  exact congrArg (· ++ [_]) hevents

/-- Running a statement appends calls and remarks and then its use. -/
theorem events_run {s s₁ : Scene σ ω} {st : Statement} {flow : Flow ω}
    (hrun : s.run h st = (flow, s₁)) :
    ∃ more, (∀ e ∈ more, e.isPlain = true) ∧ s₁.events =
      s.events ++ more ++ [.used s.player.actor s.player.dialog st] := by
  obtain ⟨r, calls, -, hevents⟩ := calls_run hrun
  refine ⟨_, fun e he => ?_, hevents⟩
  rcases List.mem_cons.mp he with rfl | he
  · rfl
  · obtain ⟨call, -, rfl⟩ := List.mem_map.mp he
    rfl

theorem events_use (s : Scene σ ω) (st : Statement) :
    (s.use st).events = s.events ++ [.used s.player.actor s.player.dialog st] := events_note _ _

end Scene

end DialogScript
