import DialogScript.Proofs.Player.Lead
import DialogScript.Proofs.Player.Transcript

/-!
# What operations say to the host

The host takes the calls of the player one after the other, each in the state that the one before
has left. An activation calls the host without polling, and if it leaves the player waiting, its
last call has begun what the player waits for. From this and from the leads follows what an
operation can say: nothing, calls without polls, or one poll and, if what is polled is over, further
calls without polls.

## Main definitions

* `Host.Takes`, `Host.Exchange`: a host takes a call, and calls one after the other
* `Host.Speech`: calls without polls
* `Scene.Begins`: calls without polls, the last of them for what the player then waits for
* `Scene.Saying`: what an operation says to the host

## Main results

* `Stage.speech_visit`, `Stage.speech_walk`: what visits and walks say
* `Scene.begins_advance`: what an activation says
* `Scene.saying_apply`: what an operation says
* `Scene.exchange_after`: the calls of a run are an exchange with the host
-/

namespace DialogScript

variable {σ ω : Type}

namespace Host

/-- The host takes a call in one state and is left in another. -/
def Takes (h : Host σ ω) (x : σ) : Call ω → σ → Prop
  | .effect e, y => h.perform e x = y
  | .delay d handle, y => h.begin d x = (handle, y)
  | .poll handle ready, y => h.poll handle x = (ready, y)
  | .code text holds, y => h.holds text x = (holds, y)
  | .scope s site admitted, y => ∃ log, h.admits s log site x = (admitted, y)

/-- The host takes calls one after the other. -/
inductive Exchange (h : Host σ ω) : σ → List (Call ω) → σ → Prop
  | nil (x : σ) : Exchange h x [] x
  | cons {x y z : σ} {c : Call ω} {calls : List (Call ω)} (htakes : h.Takes x c y)
      (hrest : Exchange h y calls z) : Exchange h x (c :: calls) z

/-- The host takes calls one after the other, and none of them is a poll. -/
structure Speech (h : Host σ ω) (x : σ) (calls : List (Call ω)) (y : σ) : Prop where
  exchange : h.Exchange x calls y
  unpolled : ∀ c ∈ calls, c.isPoll = false

variable {h : Host σ ω}

theorem Exchange.append {x y z : σ} {calls calls' : List (Call ω)} (h₁ : h.Exchange x calls y)
    (h₂ : h.Exchange y calls' z) : h.Exchange x (calls ++ calls') z := by
  induction h₁ with
  | nil => exact h₂
  | cons htakes _ ih => exact .cons htakes (ih h₂)

theorem exchange_append_iff {x z : σ} {calls calls' : List (Call ω)} :
    h.Exchange x (calls ++ calls') z ↔ ∃ y, h.Exchange x calls y ∧ h.Exchange y calls' z := by
  constructor
  · intro hexchange
    induction calls generalizing x with
    | nil => exact ⟨x, .nil x, hexchange⟩
    | cons c calls ih =>
        cases hexchange with
        | cons htakes hrest =>
            obtain ⟨y, hcalls, hcalls'⟩ := ih hrest
            exact ⟨y, .cons htakes hcalls, hcalls'⟩
  · rintro ⟨y, hcalls, hcalls'⟩
    exact hcalls.append hcalls'

theorem exchange_singleton_iff {x y : σ} {c : Call ω} :
    h.Exchange x [c] y ↔ h.Takes x c y := by
  constructor
  · intro hexchange
    cases hexchange with
    | cons htakes hrest =>
        cases hrest
        exact htakes
  · exact fun htakes => .cons htakes (.nil y)

namespace Speech

theorem nil (x : σ) : h.Speech x [] x := ⟨.nil x, by simp⟩

theorem single {x y : σ} {c : Call ω} (htakes : h.Takes x c y) (hc : c.isPoll = false) :
    h.Speech x [c] y := ⟨exchange_singleton_iff.mpr htakes, by simpa using hc⟩

theorem append {x y z : σ} {calls calls' : List (Call ω)} (h₁ : h.Speech x calls y)
    (h₂ : h.Speech y calls' z) : h.Speech x (calls ++ calls') z := by
  refine ⟨h₁.exchange.append h₂.exchange, fun c hc => ?_⟩
  rcases List.mem_append.mp hc with hc | hc
  · exact h₁.unpolled c hc
  · exact h₂.unpolled c hc

end Speech

end Host

/-- The last of some calls begins what a handle stands for. -/
def Begun (calls : List (Call ω)) (handle : ω) : Prop :=
  ∃ before d, calls = before ++ [.delay d handle]

theorem Begun.append {calls : List (Call ω)} {handle : ω} (hbegun : Begun calls handle)
    (before : List (Call ω)) : Begun (before ++ calls) handle := by
  obtain ⟨before', d, rfl⟩ := hbegun
  exact ⟨before ++ before', d, (List.append_assoc _ _ _).symm⟩

/-- The place that a visit leads to. -/
def Walker.Next.walker : Walker.Next σ ω → Walker σ ω
  | on w | jump _ w | stop _ w => w

/-! ### The machine -/

namespace Stage

variable {t : Stage} {h : Host σ ω}

theorem speech_ask (log : Log) (c : Condition) (x : σ) :
    h.Speech x [(t.ask h log c x).2.1] (t.ask h log c x).2.2 := by
  rw [ask]
  split
  · exact .single rfl rfl
  · exact .single ⟨log, rfl⟩ rfl

theorem speech_answers (log : Log) (cs : List Condition) (x : σ) :
    h.Speech x (t.answers h log cs x).2.1 (t.answers h log cs x).2.2 := by
  induction cs generalizing x with
  | nil => exact .nil x
  | cons c cs ih =>
      have hask := speech_ask (t := t) (h := h) log c x
      rw [answers]
      rcases hanswer : t.ask h log c x with ⟨_ | _, call, y⟩ <;> rw [hanswer] at hask
      · exact hask
      · exact hask.append (ih y)

/-- A walk stops without choices to say, and if it leaves the player waiting, its last call has
begun what the player waits for. -/
def StopsWell (calls : List (Call ω)) (phase : Phase) (w : Walker σ ω) : Prop :=
  phase ≠ .echoing ∧ (phase = .waiting → ∃ handle, w.wait = some handle ∧ Begun calls handle)

theorem stopsWell_of_ne {calls : List (Call ω)} {phase : Phase} {w : Walker σ ω}
    (hechoing : phase ≠ .echoing) (hwaiting : phase ≠ .waiting) : StopsWell calls phase w :=
  ⟨hechoing, fun hphase => absurd hphase hwaiting⟩

theorem speech_meet (st : Statement) (w : Walker σ ω) :
    h.Speech w.host (t.meet h st w).1 (t.meet h st w).2.walker.host ∧
      ∀ phase w', (t.meet h st w).2 = .stop phase w' → StopsWell (t.meet h st w).1 phase w' := by
  rw [meet]
  cases st.instruction.request with
  | offer number =>
      refine ⟨.nil _, fun phase w' hstop => ?_⟩
      cases hstop
  | effect e =>
      dsimp only
      split
      · cases e <;> refine ⟨.single rfl rfl, fun phase w' hstop => ?_⟩ <;> cases hstop
      · refine ⟨.nil _, fun phase w' hstop => ?_⟩
        obtain ⟨rfl, rfl⟩ := Walker.Next.stop.inj hstop
        exact stopsWell_of_ne (by decide) (by decide)
  | delay d =>
      dsimp only
      split
      · refine ⟨.single rfl rfl, fun phase w' hstop => ?_⟩
        obtain ⟨rfl, rfl⟩ := Walker.Next.stop.inj hstop
        exact ⟨by decide, fun _ => ⟨_, rfl, [], d, rfl⟩⟩
      · refine ⟨.nil _, fun phase w' hstop => ?_⟩
        obtain ⟨rfl, rfl⟩ := Walker.Next.stop.inj hstop
        exact stopsWell_of_ne (by decide) (by decide)

/-- A visit does not poll, and if it leaves the player waiting, its last call has begun what the
player waits for. -/
theorem speech_visit (w : Walker σ ω) :
    h.Speech w.host (t.visit h w).1 (t.visit h w).2.walker.host ∧
      ∀ phase w', (t.visit h w).2 = .stop phase w' → StopsWell (t.visit h w).1 phase w' := by
  have hsilent {next : Walker.Next σ ω} (hhost : next.walker.host = w.host)
      (hstop : ∀ phase w', next = .stop phase w' → phase = .idle ∨ phase = .choosing) :
      h.Speech w.host [] next.walker.host ∧
        ∀ phase w', next = .stop phase w' → StopsWell [] phase w' := by
    refine ⟨by rw [hhost]; exact .nil w.host, fun phase w' heq => ?_⟩
    rcases hstop phase w' heq with rfl | rfl <;> exact stopsWell_of_ne (by decide) (by decide)
  rw [visit]
  split
  · exact hsilent rfl fun phase w' heq => .inl (Walker.Next.stop.inj heq).1.symm
  · split
    · split
      · exact hsilent rfl fun phase w' heq => .inr (Walker.Next.stop.inj heq).1.symm
      · split
        · exact hsilent rfl fun phase w' heq => by cases heq
        · exact hsilent rfl fun phase w' heq => .inl (Walker.Next.stop.inj heq).1.symm
    · rename_i st _
      have hasked := speech_answers (t := t) (h := h) w.log st.conditions w.host
      rcases hanswer : t.answers h w.log st.conditions w.host with ⟨_ | _, asked, host⟩ <;>
        rw [hanswer] at hasked
      · exact ⟨hasked, fun phase w' heq => by cases heq⟩
      · let shown := ({ w with host }).record t st Scope.onShow
        obtain ⟨hmet, hstop⟩ := speech_meet (t := t) (h := h) st shown
        refine ⟨hasked.append hmet, fun phase w' heq => ?_⟩
        obtain ⟨hechoing, hwaiting⟩ := hstop phase w' heq
        refine ⟨hechoing, fun hphase => ?_⟩
        obtain ⟨handle, hwait, hbegun⟩ := hwaiting hphase
        exact ⟨handle, hwait, hbegun.append asked⟩

theorem speech_of_visit {w : Walker σ ω} {calls : List (Call ω)} {next : Walker.Next σ ω}
    (hvisit : t.visit h w = (calls, next)) : h.Speech w.host calls next.walker.host ∧
      ∀ phase w', next = .stop phase w' → StopsWell calls phase w' := by
  have hspeech := speech_visit (t := t) (h := h) w
  rwa [hvisit] at hspeech

/-- Nor does a walk poll, and if it leaves the player waiting, its last call has begun what the
player waits for. -/
theorem speech_walk {n : Nat} {w w' : Walker σ ω} {calls : List (Call ω)} {phase : Phase}
    (hwalk : t.Walk h n w calls phase w') :
    h.Speech w.host calls w'.host ∧ StopsWell calls phase w' := by
  induction hwalk with
  | stop hvisit =>
      obtain ⟨hspeech, hstop⟩ := speech_of_visit hvisit
      exact ⟨hspeech, hstop _ _ rfl⟩
  | on hvisit _ ih | jump hvisit _ _ ih =>
      obtain ⟨hspeech, -⟩ := speech_of_visit hvisit
      obtain ⟨hrest, hechoing, hwaiting⟩ := ih
      refine ⟨hspeech.append hrest, hechoing, fun hphase => ?_⟩
      obtain ⟨handle, hwait, hbegun⟩ := hwaiting hphase
      exact ⟨handle, hwait, hbegun.append _⟩
  | missed hvisit | spent hvisit =>
      obtain ⟨hspeech, -⟩ := speech_of_visit hvisit
      exact ⟨hspeech, stopsWell_of_ne (by decide) (by decide)⟩

end Stage

/-- The operation leaves what the player waits for. -/
def Operation.leaves : Operation → Bool
  | start .. | startSource .. | goTo _ | finish => true
  | update | choose _ | setLog _ => false

namespace Scene

variable {h : Host σ ω}

/-! ### Parts of a session -/

/-- Nothing is said to the host. -/
def Silent (s s' : Scene σ ω) : Prop := s'.calls = s.calls ∧ s'.host = s.host

/-- Calls are made without polls, and if the player then waits, the last of them has begun what it
waits for. -/
def Begins (h : Host σ ω) (s s' : Scene σ ω) : Prop :=
  ∃ calls, s'.calls = s.calls ++ calls ∧ h.Speech s.host calls s'.host ∧
    (s'.Waits → ∃ handle, s'.player.wait = some handle ∧ Begun calls handle)

theorem Silent.trans {s s₁ s' : Scene σ ω} (h₁ : Silent s s₁) (h₂ : Silent s₁ s') : Silent s s' :=
  ⟨h₂.1.trans h₁.1, h₂.2.trans h₁.2⟩

theorem Silent.begins {s s₁ s' : Scene σ ω} (hsilent : Silent s s₁) (hbegins : Begins h s₁ s') :
    Begins h s s' := by
  obtain ⟨hcalls, hhost⟩ := hsilent
  rwa [Begins, hcalls, hhost] at hbegins

theorem Silent.begins_of_not_waits {s s' : Scene σ ω} (hsilent : Silent s s')
    (hs' : ¬s'.Waits) : Begins h s s' := by
  obtain ⟨hcalls, hhost⟩ := hsilent
  refine ⟨[], by rw [hcalls, List.append_nil], hhost ▸ .nil _, fun hwaits => absurd hwaits hs'⟩

theorem silent_remark (s : Scene σ ω) (r : Remark) : Silent s (s.remark r) :=
  ⟨calls_remark s r, rfl⟩

theorem silent_finish (s : Scene σ ω) : Silent s s.finish := ⟨calls_finish s, host_finish s⟩

theorem silent_use (s : Scene σ ω) (st : Statement) : Silent s (s.use st) := ⟨calls_use s st, rfl⟩

theorem silent_enter (s : Scene σ ω) (name : String) : Silent s (s.enter name).2 := by
  rw [enter]
  split
  · exact silent_remark s _
  · exact (silent_remark s _).trans (silent_finish _)

theorem silent_reading (s : Scene σ ω) (source : String) : Silent s (s.reading source) :=
  reading_induct (P := Silent s) (fun s' r hs => hs.trans (silent_remark s' r)) (silent_finish s)
    source

theorem silent_opened (s : Scene σ ω) (actor dialog label source : String) (script : Script) :
    Silent s (s.opened actor dialog label source script) := by
  have hreading := silent_reading s source
  unfold opened
  generalize s.reading source = s' at hreading
  exact hreading.trans (silent_remark s' (.started actor dialog label))

theorem not_waits_fresh (loader : Loader) (config : Config) (log : Log) (host : σ) :
    ¬(fresh loader config log host : Scene σ ω).Waits := by
  rintro (hphase | hphase) <;> cases hphase

theorem not_waits_finish (s : Scene σ ω) : ¬s.finish.Waits := by simp [Waits]

theorem not_waits_enter {s : Scene σ ω} {name : String} (hmissing : (s.enter name).1 = false) :
    ¬(s.enter name).2.Waits := by
  rcases henter : s.enter name with ⟨found, s'⟩
  obtain rfl : found = false := by simpa [henter] using hmissing
  obtain ⟨-, rfl⟩ := of_enter_false henter
  exact not_waits_finish _

/-- An activation does not poll, and if it leaves the player waiting, its last call has begun what
the player waits for. -/
theorem begins_advance (h : Host σ ω) (s : Scene σ ω) : Begins h s (s.advance h) := by
  obtain ⟨calls, hcalls, hwalk⟩ := walk_of_activation (activation_advance (h := h) s)
  obtain ⟨hspeech, hechoing, hwaiting⟩ := Stage.speech_walk hwalk
  refine ⟨calls, hcalls, hspeech, fun hwaits => ?_⟩
  rcases hwaits with hphase | hphase
  · exact hwaiting hphase
  · exact absurd hphase hechoing

theorem begins_proceed {s : Scene σ ω} {lead : Bool × Scene σ ω} (hsilent : Silent s lead.2)
    (hstays : lead.1 = false → ¬lead.2.Waits) : Begins h s (proceed h lead) := by
  rcases lead with ⟨_ | _, s₁⟩
  · exact hsilent.begins_of_not_waits (hstays rfl)
  · exact hsilent.begins (begins_advance h s₁)

theorem begins_enter (s : Scene σ ω) (name : String) :
    Begins h s (proceed h (s.enter name)) :=
  begins_proceed (silent_enter s name) not_waits_enter

theorem begins_opening (s : Scene σ ω) (actor dialog label source : String) :
    Begins h s (proceed h (s.opening actor dialog label source)) := by
  rw [opening]
  split
  · refine (silent_reading s source).begins_of_not_waits ?_
    simp [Waits, Player.dismissed]
  · exact (silent_opened s actor dialog label source _).begins (begins_enter _ label)

/-- Polling makes one poll, of what the player waits for. -/
theorem calls_pollWait {s s' : Scene σ ω} {ready : Bool} (hpoll : s.pollWait h = (ready, s')) :
    s'.calls = s.calls ++ s.player.wait.toList.map fun handle => .poll handle ready := by
  have hevents := congrArg (List.filterMap Event.call?) (events_pollWait hpoll)
  rw [List.filterMap_append, List.filterMap_map] at hevents
  exact hevents.trans (congrArg (s.calls ++ ·) (congrFun List.filterMap_eq_map _))

/-- Picking a choice whose text is said begins to say it. -/
theorem begins_echo (s : Scene σ ω) (text target : String) :
    Begins h s (s.echo h text target) := by
  let d : Delay := .say s.player.actor text
  refine ⟨[.delay d (h.begin d s.host).1], calls_note _ _, .single rfl rfl, fun _ => ?_⟩
  exact ⟨_, rfl, [], d, rfl⟩

theorem begins_goOn (s : Scene σ ω) : Begins h s (proceed h s.goOn) := by
  rw [goOn]
  split
  · let s' := { s with player := { s.player with destination := "" } }
    have hsilent : Silent s s' := ⟨rfl, rfl⟩
    exact hsilent.begins (begins_enter s' _)
  · have hsilent : Silent s s.step := ⟨rfl, rfl⟩
    exact hsilent.begins (begins_advance h _)

/-! ### Operations -/

/-- What an operation says to the host. -/
inductive Saying (h : Host σ ω) (s : Scene σ ω) : Operation → Scene σ ω → Prop
  /-- Nothing, and the player waits as before. -/
  | rests {op : Operation} {s' : Scene σ ω} (hop : op.leaves = false) (hsilent : Silent s s')
      (hphase : s'.player.phase = s.player.phase) (hwait : s'.player.wait = s.player.wait) :
      Saying h s op s'
  | begins {op : Operation} {s' : Scene σ ω} (hbegins : Begins h s s') : Saying h s op s'
  /-- One poll, of what is not over. -/
  | pending {handle : ω} {s' : Scene σ ω} (hwaits : s.Waits)
      (hwait : s.player.wait = some handle) (hcalls : s'.calls = s.calls ++ [.poll handle false])
      (hhost : h.poll handle s.host = (false, s'.host)) (hplayer : s'.player = s.player) :
      Saying h s .update s'
  /-- One poll, of what is over, before anything else. -/
  | ended {handle : ω} {s₁ s' : Scene σ ω} (hwaits : s.Waits)
      (hwait : s.player.wait = some handle) (hcalls : s₁.calls = s.calls ++ [.poll handle true])
      (hhost : h.poll handle s.host = (true, s₁.host)) (hbegins : Begins h s₁ s') :
      Saying h s .update s'

theorem saying_pick (s : Scene σ ω) (choice : Nat) :
    s.Saying h (.choose choice) (proceed h (s.pick h choice)) := by
  rw [pick]
  split
  · exact .rests rfl (silent_remark s _) rfl rfl
  · split
    · exact .rests rfl (silent_remark s _) rfl rfl
    · split
      · exact .rests rfl ⟨rfl, rfl⟩ rfl rfl
      · split
        · exact .begins ((silent_use s _).begins (begins_echo _ _ _))
        · exact .begins ((silent_use s _).begins (begins_enter _ _))

theorem saying_resume {s : Scene σ ω} (hwaits : s.Waits) :
    s.Saying h .update (proceed h (s.resume h)) := by
  rw [resume]
  cases hwait : s.player.wait with
  | none =>
      have hpoll : s.pollWait h = (true, s) := by rw [pollWait, hwait]
      rw [hpoll]
      exact .begins (begins_goOn s)
  | some handle =>
      rcases hpoll : s.pollWait h with ⟨ready, s'⟩
      have hcalls := calls_pollWait hpoll
      have hhost := host_pollWait hpoll hwait
      rw [hwait] at hcalls
      cases ready with
      | false => exact .pending hwaits hwait hcalls hhost (player_pollWait hpoll)
      | true => exact .ended hwaits hwait hcalls hhost (begins_goOn s')

theorem saying_awaken (s : Scene σ ω) : s.Saying h .update (proceed h (s.awaken h)) := by
  by_cases hs : s.Waits
  · rw [awaken_of_waits h hs]
    exact saying_resume hs
  · obtain ⟨_ | _, hlead⟩ := awaken_of_not_waits h hs <;> rw [hlead]
    · exact .rests rfl ⟨rfl, rfl⟩ rfl rfl
    · exact .begins (begins_advance h s)

/-- What an operation says to the host: nothing, calls without polls, or one poll with or without
calls behind it. -/
theorem saying_apply (h : Host σ ω) (s : Scene σ ω) (op : Operation) :
    s.Saying h op (s.apply h op) := by
  rw [apply_eq_proceed]
  cases op with
  | start actor dialog label =>
      rw [lead]
      split
      · exact .begins ((silent_finish s).begins_of_not_waits (not_waits_finish s))
      · exact .begins (begins_opening s actor dialog label _)
  | startSource actor dialog label source => exact .begins (begins_opening s _ _ label source)
  | update => exact saying_awaken s
  | choose choice => exact saying_pick s choice
  | goTo label => exact .begins (begins_enter s label)
  | finish => exact .begins ((silent_finish s).begins_of_not_waits (not_waits_finish s))
  | setLog log => exact .rests rfl ⟨rfl, rfl⟩ rfl rfl

/-- The calls of an operation are an exchange with the host. -/
theorem exchange_apply (h : Host σ ω) (s : Scene σ ω) (op : Operation) :
    ∃ calls, (s.apply h op).calls = s.calls ++ calls ∧
      h.Exchange s.host calls (s.apply h op).host := by
  have hsaying := saying_apply h s op
  generalize s.apply h op = s' at hsaying
  cases hsaying with
  | rests _ hsilent =>
      refine ⟨[], hsilent.1.trans (List.append_nil _).symm, ?_⟩
      rw [hsilent.2]
      exact .nil _
  | begins hbegins =>
      obtain ⟨calls, hcalls, hspeech, -⟩ := hbegins
      exact ⟨calls, hcalls, hspeech.exchange⟩
  | pending _ _ hcalls hhost => exact ⟨_, hcalls, .cons hhost (.nil _)⟩
  | ended _ _ hcalls hhost hbegins =>
      obtain ⟨calls, hcalls', hspeech, -⟩ := hbegins
      rw [hcalls, List.append_assoc] at hcalls'
      exact ⟨_, hcalls', .cons hhost hspeech.exchange⟩

/-- The calls of a run are an exchange with the host. -/
theorem exchange_after (h : Host σ ω) (s : Scene σ ω) (ops : List Operation) :
    ∃ calls, (s.after h ops).calls = s.calls ++ calls ∧
      h.Exchange s.host calls (s.after h ops).host := by
  induction ops generalizing s with
  | nil => exact ⟨[], (List.append_nil _).symm, .nil _⟩
  | cons op ops ih =>
      obtain ⟨calls, hcalls, hexchange⟩ := exchange_apply h s op
      obtain ⟨calls', hcalls', hrest⟩ := ih (s.apply h op)
      rw [hcalls, List.append_assoc] at hcalls'
      exact ⟨calls ++ calls', hcalls', hexchange.append hrest⟩

end Scene

end DialogScript
