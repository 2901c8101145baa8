import DialogScript.Proofs.Player.Visit

/-!
# A reference machine for running statements

The interpreter runs three nested loops over lists of labels and statements. The reference machine
has no loops: it looks up the statement at a label and a cursor, visits it, and says which calls of
the host that makes and where it leads. Its state is what the visits depend on, without the
transcript, the configuration and the settings that only the host cares about.

The interpreter refines the machine: from every scene, the calls of an activation are those of the
machine from the same place, in order, and it stops in the same phase at the same place. The machine
is deterministic, so these are the only calls it can make.

## Main definitions

* `Stage`, `Walker`: the script of a session with its names, and a place in it
* `Request`, `Instruction.request`: what an instruction asks for
* `Stage.visit`: the visit of a statement or of the end of a label
* `Stage.Walk`: visits and jumps up to a stop

## Main results

* `Stage.Walk.unique`: the machine is deterministic
* `Scene.visit_refines`, `Scene.walk_of_activation`: visits and activations are those of the machine
* `Scene.advance_refines`: the calls of the interpreter are those of the machine
-/

namespace DialogScript

/-! ### The machine -/

/-- What an instruction asks for. -/
inductive Request
  /-- A choice is put on offer, without a call of the host. -/
  | offer (number : Int32)
  /-- A call of the host that is done at once. -/
  | effect (e : Effect)
  /-- A call of the host that takes time. -/
  | delay (d : Delay)

/-- The one thing that an instruction asks for. -/
def Instruction.request : Instruction → Request
  | .choice number _ _ => .offer number
  | .say actor text => .delay (.say actor text)
  | .pause seconds => .delay (.pause seconds)
  | .waitFor actor => .delay (.waitFor actor)
  | .waitWhile text => .delay (.waitWhile text)
  | .code text => .effect (.execute text)
  | .goto label => .effect (.goto label)
  | .parrot active => .effect (.parrot active)
  | .dialog actor => .effect (.handOver actor)
  | .override label => .effect (.override label)
  | .shutUp => .effect .shutUp
  | .allowObjects allow => .effect (.allowObjects allow)
  | .limit max => .effect (.limit max.toInt.toNat)

/-- The places with a choice put into the place of its number, if that is free and fewer choices
are on offer than may be. -/
def Slots.fill (slots : Slots) (limit : Nat) (number : Int32) (i : Nat) : Slots :=
  Vector.ofFn fun k =>
    if number.toInt = (k : Int) + 1 ∧ slots.get k = none ∧ slots.countP Option.isSome < limit then
      some i
    else slots.get k

/-- A script that is played, with the names of the session. -/
structure Stage where
  script : Script
  actor : String
  dialog : String

/-- A place in a script and what the visits from there depend on. -/
structure Walker (σ ω : Type) where
  label : Option Nat
  cursor : Nat
  slots : Slots
  /-- How many choices may be on offer. -/
  limit : Nat
  log : Log
  wait : Option ω
  /-- The state of the host. -/
  host : σ

/-- What the visit of a walker leads to. -/
inductive Walker.Next (σ ω : Type)
  | on (w : Walker σ ω)
  | jump (name : String) (w : Walker σ ω)
  | stop (phase : Phase) (w : Walker σ ω)

namespace Walker

variable {σ ω : Type}

/-- The next statement. -/
def forward (w : Walker σ ω) : Walker σ ω := { w with cursor := w.cursor + 1 }

/-- The first statement of a label, with no choices on offer. -/
def startOf (w : Walker σ ω) (i : Nat) : Walker σ ω :=
  { w with label := some i, cursor := 0, slots := .empty }

/-- The end of the dialog. -/
def ended (w : Walker σ ω) : Walker σ ω :=
  { w with label := none, cursor := 0, slots := .empty, wait := none }

/-- The conditions of a statement are recorded, for some scopes. -/
def record (w : Walker σ ω) (t : Stage) (st : Statement) (scopes : Scope → Bool) : Walker σ ω :=
  { w with log := w.log.extend (st.entries scopes t.actor t.dialog) }

/-- The limit that the host is told of is obeyed. -/
def obey (w : Walker σ ω) : Effect → Walker σ ω
  | .limit limit => { w with limit }
  | _ => w

end Walker

namespace Stage

variable {σ ω : Type} (t : Stage)

/-- The label of a walker, with its place in the script. -/
def place? (w : Walker σ ω) : Option (Nat × Label) :=
  w.label.bind fun i => t.script.labels[i]?.map fun l => (i, l)

variable (h : Host σ ω)

/-- A condition is asked: whether it holds, the call, and the host afterwards. -/
def ask (log : Log) (c : Condition) (host : σ) : Bool × Call ω × σ :=
  match c.gate with
  | .code text =>
    let (holds, host) := h.holds text host
    (holds, .code text holds, host)
  | .scope scope =>
    let site : Site := ⟨t.actor, t.dialog, c.line⟩
    let (admitted, host) := h.admits scope log site host
    (admitted, .scope scope site admitted, host)

/-- Conditions are asked in order, none of them behind one that does not hold. -/
def answers (log : Log) : List Condition → σ → Bool × List (Call ω) × σ
  | [], host => (true, [], host)
  | c :: cs, host =>
    let (holds, call, host) := t.ask h log c host
    if holds then
      let (all, calls, host) := answers log cs host
      (all, call :: calls, host)
    else (false, [call], host)

/-- The visit of a statement when all its conditions hold: a choice makes no call, nor does anything
else behind choices on offer; otherwise one call is made. -/
def meet (st : Statement) (w : Walker σ ω) : List (Call ω) × Walker.Next σ ω :=
  match st.instruction.request with
  | .offer number =>
    ([], .on { w with slots := w.slots.fill w.limit number w.cursor }.forward)
  | .effect e =>
    if w.slots = .empty then
      let used := ({ w with host := h.perform e w.host }.record t st (!·.onShow)).obey e
      ([.effect e],
        match e with
        | .goto name => .jump name used
        | _ => .on used.forward)
    else ([], .stop .choosing w)
  | .delay d =>
    if w.slots = .empty then
      let (handle, host) := h.begin d w.host
      let used := { w with host, wait := some handle }.record t st (!·.onShow)
      ([.delay d handle], .stop .waiting used)
    else ([], .stop .choosing w)

/-- The visit of a place: the calls it makes and what it leads to. -/
def visit (w : Walker σ ω) : List (Call ω) × Walker.Next σ ω :=
  match t.place? w with
  | none => ([], .stop .idle w.ended)
  | some (i, l) =>
    match l.statements[w.cursor]? with
    | none =>
      if w.slots ≠ .empty then ([], .stop .choosing w)
      else if i + 1 < t.script.labels.length then ([], .on (w.startOf (i + 1)))
      else ([], .stop .idle w.ended)
    | some st =>
      let (holds, asked, host) := t.answers h w.log st.conditions w.host
      let shown := { w with host }.record t st Scope.onShow
      if holds then
        let (calls, next) := t.meet h st shown
        (asked ++ calls, next)
      else (asked, .on shown.forward)

/-- Visits with at most `n` jumps up to a stop, the calls they make, the phase and the place. -/
inductive Walk : Nat → Walker σ ω → List (Call ω) → Phase → Walker σ ω → Prop
  | stop {n w calls phase w'} (hvisit : t.visit h w = (calls, .stop phase w')) :
      Walk n w calls phase w'
  | on {n w calls w₁ calls₁ phase w'} (hvisit : t.visit h w = (calls, .on w₁))
      (hrest : Walk n w₁ calls₁ phase w') : Walk n w (calls ++ calls₁) phase w'
  /-- A jump to a label that does not exist ends the dialog. -/
  | missed {n w calls name w₁} (hvisit : t.visit h w = (calls, .jump name w₁))
      (hmissing : ∀ l ∈ t.script.labels, l.name ≠ name) : Walk n w calls .idle w₁.ended
  /-- The last jump leads to the label, but not further. -/
  | spent {w calls name w₁ i} (hvisit : t.visit h w = (calls, .jump name w₁))
      (hlast : t.script.IsLast name i) : Walk 1 w calls .running (w₁.startOf i)
  | jump {n w calls name w₁ i calls₁ phase w'} (hvisit : t.visit h w = (calls, .jump name w₁))
      (hlast : t.script.IsLast name i) (hrest : Walk (n + 1) (w₁.startOf i) calls₁ phase w') :
      Walk (n + 2) w (calls ++ calls₁) phase w'

end Stage

/-! ### Determinism -/

namespace Stage

variable {σ ω : Type} {t : Stage} {h : Host σ ω}

theorem not_isLast_of_missing {script : Script} {name : String} {i : Nat}
    (hmissing : ∀ l ∈ script.labels, l.name ≠ name) : ¬script.IsLast name i := by
  rintro ⟨⟨l, hl, hname⟩, -⟩
  exact hmissing l (List.mem_of_getElem? hl) hname

/-- The machine is deterministic. -/
theorem Walk.unique {n : Nat} {w w' w'' : Walker σ ω} {calls calls' : List (Call ω)}
    {phase phase' : Phase} (hwalk : t.Walk h n w calls phase w')
    (hwalk' : t.Walk h n w calls' phase' w'') : calls' = calls ∧ phase' = phase ∧ w'' = w' := by
  induction hwalk generalizing calls' phase' w'' with
  | stop hvisit =>
      cases hwalk' with
      | stop hvisit' =>
          cases hvisit.symm.trans hvisit'
          exact ⟨rfl, rfl, rfl⟩
      | on hvisit' | missed hvisit' | spent hvisit' | jump hvisit' =>
          cases hvisit.symm.trans hvisit'
  | on hvisit hrest ih =>
      cases hwalk' with
      | on hvisit' hrest' =>
          cases hvisit.symm.trans hvisit'
          obtain ⟨rfl, rfl, rfl⟩ := ih hrest'
          exact ⟨rfl, rfl, rfl⟩
      | stop hvisit' | missed hvisit' | spent hvisit' | jump hvisit' =>
          cases hvisit.symm.trans hvisit'
  | missed hvisit hmissing =>
      cases hwalk' with
      | missed hvisit' =>
          cases hvisit.symm.trans hvisit'
          exact ⟨rfl, rfl, rfl⟩
      | spent hvisit' hlast | jump hvisit' hlast =>
          cases hvisit.symm.trans hvisit'
          exact absurd hlast (not_isLast_of_missing hmissing)
      | stop hvisit' | on hvisit' => cases hvisit.symm.trans hvisit'
  | spent hvisit hlast =>
      cases hwalk' with
      | missed hvisit' hmissing =>
          cases hvisit.symm.trans hvisit'
          exact absurd hlast (not_isLast_of_missing hmissing)
      | spent hvisit' hlast' =>
          cases hvisit.symm.trans hvisit'
          obtain rfl := hlast.unique hlast'
          exact ⟨rfl, rfl, rfl⟩
      | stop hvisit' | on hvisit' => cases hvisit.symm.trans hvisit'
  | jump hvisit hlast hrest ih =>
      cases hwalk' with
      | missed hvisit' hmissing =>
          cases hvisit.symm.trans hvisit'
          exact absurd hlast (not_isLast_of_missing hmissing)
      | jump hvisit' hlast' hrest' =>
          cases hvisit.symm.trans hvisit'
          obtain rfl := hlast.unique hlast'
          obtain ⟨rfl, rfl, rfl⟩ := ih hrest'
          exact ⟨rfl, rfl, rfl⟩
      | stop hvisit' | on hvisit' => cases hvisit.symm.trans hvisit'

end Stage

/-! ### The interpreter refines the machine -/

/-- The scene after a visit. -/
def Outcome.scene {σ ω : Type} : Outcome σ ω → Scene σ ω
  | on s | jump _ s | halt s => s

namespace Scene

variable {σ ω : Type} {h : Host σ ω}

/-- The script that a scene plays. -/
def stage (s : Scene σ ω) : Stage := ⟨s.player.script, s.player.actor, s.player.dialog⟩

/-- What a scene is to the machine. -/
def walker (s : Scene σ ω) : Walker σ ω where
  label := s.player.label
  cursor := s.player.cursor
  slots := s.player.slots
  limit := s.player.limit
  log := s.player.log
  wait := s.player.wait
  host := s.host

/-- What the outcome of a visit is to the machine. -/
def next : Outcome σ ω → Walker.Next σ ω
  | .on s => .on s.walker
  | .jump name s => .jump name s.walker
  | .halt s => .stop s.player.phase s.walker

theorem calls_note (s : Scene σ ω) (e : Event ω) :
    (s.note e).calls = s.calls ++ e.call?.toList := by
  rcases hcall : e.call? with _ | c <;> simp [calls, note, hcall]

@[simp] theorem calls_remark (s : Scene σ ω) (r : Remark) : (s.remark r).calls = s.calls := by
  rw [remark, calls_note]
  exact List.append_nil _

/-- A condition is asked as the machine asks it. -/
theorem ask_refines (h : Host σ ω) (s : Scene σ ω) (c : Condition) :
    ∃ call, s.stage.ask h s.player.log c s.host = ((s.ask h c).1, call, (s.ask h c).2.host) ∧
      (s.ask h c).2.calls = s.calls ++ [call] := by
  obtain ⟨gate, line⟩ := c
  cases gate with
  | code text => exact ⟨.code text (h.holds text s.host).1, rfl, calls_note _ _⟩
  | scope scope => exact ⟨.scope scope (s.player.site line) _, rfl, calls_note _ _⟩

/-- Conditions are asked as the machine asks them. -/
theorem askAll_refines (h : Host σ ω) (s : Scene σ ω) (cs : List Condition) :
    ∃ calls, s.stage.answers h s.player.log cs s.host =
        ((s.askAll h cs).1, calls, (s.askAll h cs).2.host) ∧
      (s.askAll h cs).2.calls = s.calls ++ calls := by
  induction cs generalizing s with
  | nil => exact ⟨[], rfl, (List.append_nil _).symm⟩
  | cons c cs ih =>
      obtain ⟨call, hask, hcall⟩ := ask_refines h s c
      obtain ⟨calls, hanswers, hcalls⟩ := ih (s.ask h c).2
      have hplayer := player_ask h s c
      rw [stage, hplayer] at hanswers
      rw [askAll_cons, Stage.answers, hask]
      cases hholds : (s.ask h c).1 with
      | false => exact ⟨[call], by simp, by simpa using hcall⟩
      | true =>
          refine ⟨call :: calls, ?_, ?_⟩
          · have hanswers : s.stage.answers h s.player.log cs (s.ask h c).2.host = _ := hanswers
            simp [hanswers]
          · simp [hcalls, hcall]

/-- A statement is judged as the machine judges it. -/
theorem judge_refines {s s₁ : Scene σ ω} {st : Statement} {accepted : Bool}
    (hjudge : s.judge h st = (accepted, s₁)) :
    ∃ calls, s.stage.answers h s.player.log st.conditions s.host = (accepted, calls, s₁.host) ∧
      s₁.calls = s.calls ++ calls := by
  obtain ⟨calls, hanswers, hcalls⟩ := askAll_refines h s st.conditions
  refine ⟨calls, ?_⟩
  rw [judge] at hjudge
  rcases hask : s.askAll h st.conditions with ⟨a, s'⟩
  rw [hask] at hjudge hanswers hcalls
  obtain ⟨rfl, rfl⟩ := Prod.mk.inj hjudge
  exact ⟨hanswers, (calls_note _ _).trans ((List.append_nil _).trans hcalls)⟩

/-- Using a statement calls nothing. -/
theorem calls_use (s : Scene σ ω) (st : Statement) : (s.use st).calls = s.calls :=
  (calls_note _ _).trans (List.append_nil _)

/-- An instruction with an effect makes one call and leads on, unless it is a jump. -/
theorem run_refines_effect (h : Host σ ω) (s : Scene σ ω) {st : Statement} {e : Effect}
    (hrequest : st.instruction.request = .effect e) :
    (s.run h st).2.calls = s.calls ++ [.effect e] ∧
      (s.run h st).2.walker =
        ({ s.walker with host := h.perform e s.host }.record s.stage st (!·.onShow)).obey e ∧
      (s.run h st).1 = match e with
        | .goto name => .jump name
        | _ => .next := by
  obtain ⟨instruction, conditions⟩ := st
  have hcalls (s' : Scene σ ω) (hs' : s'.calls = s.calls) (st : Statement) :
      ((s'.perform h e).use st).calls = s.calls ++ [.effect e] := by
    rw [calls_use, perform, calls_note]
    exact congrArg (· ++ [Call.effect e]) hs'
  cases instruction <;> cases hrequest
  all_goals exact ⟨hcalls _ (calls_remark s _) _, rfl, rfl⟩

/-- An instruction with a delay makes one call and leads to a wait. -/
theorem run_refines_delay (h : Host σ ω) (s : Scene σ ω) {st : Statement} {d : Delay}
    (hrequest : st.instruction.request = .delay d) :
    (s.run h st).2.calls = s.calls ++ [.delay d (h.begin d s.host).1] ∧
      (s.run h st).2.walker =
        { s.walker with host := (h.begin d s.host).2 }.record s.stage st (!·.onShow) ∧
      (s.run h st).1 = .wait (h.begin d s.host).1 := by
  obtain ⟨instruction, conditions⟩ := st
  have hcalls (s' : Scene σ ω) (hs' : s'.calls = s.calls) (hhost : s'.host = s.host)
      (st : Statement) :
      ((s'.begin h d).2.use st).calls = s.calls ++ [.delay d (h.begin d s.host).1] := by
    rw [calls_use, begin, hhost]
    refine (calls_note _ _).trans ?_
    exact congrArg (· ++ [Call.delay d (h.begin d s.host).1]) hs'
  cases instruction <;> cases hrequest
  all_goals exact ⟨hcalls _ (calls_remark s _) rfl _, rfl, rfl⟩

/-- A choice is put on offer as the machine does it. -/
theorem slots_offer (s : Scene σ ω) (number : Int32) :
    (s.offer number).player.slots =
      s.player.slots.fill s.player.limit number s.player.cursor := by
  refine Vector.ext fun k hk => ?_
  rw [Slots.fill, Vector.getElem_ofFn, ← Player.offered_length]
  rcases offer_cases s number with ⟨⟨r, hoffer⟩, hfull⟩ | ⟨j, hnumber, hfree, hlimit, hoffer⟩
  · rw [hoffer, if_neg]
    · rfl
    · rintro ⟨hnumber, hfree, hlimit⟩
      exact absurd hlimit (Nat.not_lt.mpr (hfull ⟨k, hk⟩ hnumber hfree))
  · rw [hoffer]
    by_cases hj : j.val = k
    · obtain rfl : j = ⟨k, hk⟩ := Fin.ext hj
      rw [if_pos ⟨hnumber, hfree, hlimit⟩]
      exact Player.get_set_self _ _ _
    · rw [if_neg]
      · exact Player.get_set_of_ne _ (k := ⟨k, hk⟩) (fun heq => hj (Fin.ext_iff.mp heq.symm)) _
      · rintro ⟨hnumber', -⟩
        dsimp only at hnumber'
        omega

/-! ### Visits and activations -/

/-- The statement at the cursor is the one that the machine comes to. -/
theorem place?_of_here? {s : Scene σ ω} {st : Statement} (hhere : s.player.here? = some st) :
    ∃ i l, s.stage.place? s.walker = some (i, l) ∧ l.statements[s.walker.cursor]? = some st := by
  obtain ⟨l, hl, hst⟩ := Option.bind_eq_some_iff.mp hhere
  obtain ⟨i, hlabel, hget⟩ := Option.bind_eq_some_iff.mp hl
  refine ⟨i, l, Option.bind_eq_some_iff.mpr ⟨i, hlabel, ?_⟩, hst⟩
  exact Option.map_eq_some_iff.mpr ⟨l, hget, rfl⟩

/-- The end of a label is where the machine finds no statement. -/
theorem place?_of_atEnd {s : Scene σ ω} {i : Nat} (hend : s.player.AtEnd i) :
    ∃ l, s.stage.place? s.walker = some (i, l) ∧ l.statements[s.walker.cursor]? = none := by
  obtain ⟨hlabel, l, hl, hcursor⟩ := hend
  refine ⟨l, Option.bind_eq_some_iff.mpr ⟨i, hlabel, ?_⟩, List.getElem?_eq_none hcursor⟩
  exact Option.map_eq_some_iff.mpr ⟨l, hl, rfl⟩

theorem stage_judge {s s₁ : Scene σ ω} {st : Statement} {accepted : Bool}
    (hjudge : s.judge h st = (accepted, s₁)) : s₁.stage = s.stage := by
  have hplayer := player_of_judge hjudge
  rw [stage, hplayer]
  rfl

theorem stage_run {s s₁ : Scene σ ω} {st : Statement} {flow : Flow ω}
    (hrun : s.run h st = (flow, s₁)) : s₁.stage = s.stage := by
  have hplayer := player_of_run hrun
  simp only [stage, hplayer, Player.obey_script, Player.obey_actor, Player.obey_dialog]

/-- Without a label the machine has no place. -/
theorem place?_of_nowhere {s : Scene σ ω} (hlabel : s.player.label? = none) :
    s.stage.place? s.walker = none := by
  rw [Stage.place?, Option.bind_eq_none_iff]
  intro i hi
  rw [Player.label?_of_label hi] at hlabel
  exact Option.map_eq_none_iff.mpr hlabel

/-- The visit of a statement asks its conditions and goes on as the verdict tells. -/
theorem visit_of_judge {s s₁ : Scene σ ω} {st : Statement} {accepted : Bool}
    (hhere : s.player.here? = some st) (hjudge : s.judge h st = (accepted, s₁)) :
    ∃ asked, s₁.calls = s.calls ++ asked ∧ s.stage.visit h s.walker =
      if accepted then
        let (calls, next) := s.stage.meet h st s₁.walker
        (asked ++ calls, next)
      else (asked, .on s₁.walker.forward) := by
  obtain ⟨i, l, hplace, hst⟩ := place?_of_here? hhere
  obtain ⟨asked, hanswers, hcalls⟩ := judge_refines hjudge
  have hwalker : s₁.walker = { s.walker with host := s₁.host }.record s.stage st Scope.onShow := by
    have hplayer := player_of_judge hjudge
    rw [walker, hplayer]
    rfl
  refine ⟨asked, hcalls, ?_⟩
  have hanswers : s.stage.answers h s.walker.log st.conditions s.walker.host =
    (accepted, asked, s₁.host) := hanswers
  rw [hwalker, Stage.visit, hplace]
  dsimp only
  rw [hst]
  dsimp only
  rw [hanswers]

/-- A statement that is no choice asks for a call of the host. -/
theorem request_of_choice?_eq_none {st : Statement} (hchoice : st.choice? = none) :
    (∃ e, st.instruction.request = .effect e) ∨ ∃ d, st.instruction.request = .delay d := by
  rw [Statement.choice?_eq_none] at hchoice
  cases hinstruction : st.instruction with
  | choice number text target => exact absurd hinstruction (hchoice number text target)
  | say | pause | waitFor | waitWhile => exact .inr ⟨_, rfl⟩
  | _ => exact .inl ⟨_, rfl⟩

theorem slots_eq_empty_iff {s : Scene σ ω} :
    s.walker.slots = .empty ↔ s.player.hasChoices = false :=
  ⟨Player.hasChoices_of_empty, Player.eq_empty_of_hasChoices⟩

theorem slots_ne_empty_iff {s : Scene σ ω} :
    s.walker.slots ≠ .empty ↔ s.player.hasChoices = true := by
  rw [ne_eq, slots_eq_empty_iff, Bool.not_eq_false]

/-- What follows a statement is to the machine. -/
def nextAfter (s : Scene σ ω) : Flow ω → Walker.Next σ ω
  | .next => .on s.walker.forward
  | .wait handle => .stop .waiting { s.walker with wait := some handle }
  | .jump name => .jump name s.walker

/-- What a statement does when it is run is what the machine says of it. -/
theorem meet_of_run {s s₁ : Scene σ ω} {st : Statement} {flow : Flow ω}
    (hchoice : st.choice? = none) (hopen : s.player.hasChoices = false)
    (hrun : s.run h st = (flow, s₁)) :
    ∃ calls, s₁.calls = s.calls ++ calls ∧
      s.stage.meet h st s.walker = (calls, s₁.nextAfter flow) := by
  have hslots := slots_eq_empty_iff.mpr hopen
  rcases request_of_choice?_eq_none hchoice with ⟨e, hrequest⟩ | ⟨d, hrequest⟩
  · obtain ⟨hcalls, hwalker, hflow⟩ := run_refines_effect h s hrequest
    rw [hrun] at hcalls hwalker hflow
    dsimp only at hcalls hwalker hflow
    refine ⟨[.effect e], hcalls, ?_⟩
    rw [Stage.meet, hrequest]
    dsimp only
    rw [if_pos hslots, hflow]
    cases e <;> simp only [nextAfter, hwalker] <;> rfl
  · obtain ⟨hcalls, hwalker, hflow⟩ := run_refines_delay h s hrequest
    rw [hrun] at hcalls hwalker hflow
    dsimp only at hcalls hwalker hflow
    refine ⟨[.delay d (h.begin d s.host).1], hcalls, ?_⟩
    rw [Stage.meet, hrequest]
    dsimp only
    rw [if_pos hslots, hflow, nextAfter, hwalker]
    rfl

/-- The visit of a statement that is run is that of the machine. -/
theorem visit_of_run {s s₁ s₂ : Scene σ ω} {st : Statement} {flow : Flow ω}
    (hhere : s.player.here? = some st) (hjudge : s.judge h st = (true, s₁))
    (hchoice : st.choice? = none) (hopen : s₁.player.hasChoices = false)
    (hrun : s₁.run h st = (flow, s₂)) :
    s₂.stage = s.stage ∧ ∃ calls, s₂.calls = s.calls ++ calls ∧
      s.stage.visit h s.walker = (calls, s₂.nextAfter flow) := by
  obtain ⟨asked, hasked, hvisit⟩ := visit_of_judge hhere hjudge
  obtain ⟨calls, hcalls, hmeet⟩ := meet_of_run hchoice hopen hrun
  refine ⟨(stage_run hrun).trans (stage_judge hjudge), asked ++ calls, ?_, ?_⟩
  · rw [hcalls, hasked, List.append_assoc]
  · rw [hvisit, if_pos rfl, ← stage_judge hjudge, hmeet]

/-- The visit of the end of a label makes no call. -/
theorem visit_of_atEnd {s : Scene σ ω} {i : Nat} (hend : s.player.AtEnd i) :
    s.stage.visit h s.walker = ([],
      if s.player.hasChoices then .stop .choosing s.walker
      else if i + 1 < s.player.script.labels.length then .on (s.walker.startOf (i + 1))
      else .stop .idle s.walker.ended) := by
  obtain ⟨l, hplace, hst⟩ := place?_of_atEnd hend
  rw [Stage.visit, hplace]
  dsimp only
  rw [hst]
  dsimp only
  cases hopen : s.player.hasChoices with
  | false =>
      rw [if_neg (not_not_intro (slots_eq_empty_iff.mpr hopen))]
      split <;> rename_i hnext
      · exact congrArg (Prod.mk []) (if_pos hnext).symm
      · exact congrArg (Prod.mk []) (if_neg hnext).symm
  | true => rw [if_pos (slots_ne_empty_iff.mpr hopen), if_pos rfl]

theorem stage_offer (s : Scene σ ω) (number : Int32) : (s.offer number).stage = s.stage := by
  obtain ⟨slots, hoffer⟩ := player_offer s number
  rw [stage, hoffer]
  rfl

theorem calls_offer (s : Scene σ ω) (number : Int32) : (s.offer number).calls = s.calls := by
  rcases offer_cases s number with ⟨⟨r, hoffer⟩, -⟩ | ⟨k, -, -, -, hoffer⟩
  · rw [hoffer, calls_remark]
  · rw [hoffer]
    rfl

theorem walker_offer (s : Scene σ ω) (number : Int32) :
    (s.offer number).walker =
      { s.walker with slots := s.walker.slots.fill s.walker.limit number s.walker.cursor } := by
  have hslots : (s.offer number).player.slots =
    s.walker.slots.fill s.walker.limit number s.walker.cursor := slots_offer s number
  rw [← hslots]
  rcases offer_cases s number with ⟨⟨r, hoffer⟩, -⟩ | ⟨k, -, -, -, hoffer⟩ <;> rw [hoffer] <;> rfl

theorem calls_finish (s : Scene σ ω) : s.finish.calls = s.calls := by
  unfold finish
  split
  · rfl
  · exact calls_remark s _

theorem stage_finish (s : Scene σ ω) : s.finish.stage = s.stage := by
  rw [stage, player_finish]
  rfl

theorem host_finish (s : Scene σ ω) : s.finish.host = s.host := by
  unfold finish
  split <;> rfl

theorem walker_finish (s : Scene σ ω) : s.finish.walker = s.walker.ended := by
  rw [walker, host_finish, player_finish]
  rfl

theorem next_finish (s : Scene σ ω) : next (.halt s.finish) = .stop .idle s.walker.ended := by
  rw [next, walker_finish, player_finish]

/-- Each visit is that of the machine. -/
theorem visit_refines {s : Scene σ ω} {o : Outcome σ ω} (hvisit : Visit h s o) :
    o.scene.stage = s.stage ∧ ∃ calls, o.scene.calls = s.calls ++ calls ∧
      s.stage.visit h s.walker = (calls, next o) := by
  have hnothing (s : Scene σ ω) : s.calls = s.calls ++ [] := (List.append_nil _).symm
  cases hvisit with
  | nowhere hlabel =>
      refine ⟨stage_finish s, [], (calls_finish s).trans (hnothing s), ?_⟩
      rw [next_finish, Stage.visit, place?_of_nowhere hlabel]
  | @rejected st s₁ hhere hjudge =>
      obtain ⟨asked, hcalls, hvisit⟩ := visit_of_judge hhere hjudge
      have hstage : s₁.stage = s.stage := stage_judge hjudge
      exact ⟨hstage, asked, hcalls, hvisit⟩
  | @offered st s₁ number text target hhere hjudge hchoice =>
      obtain ⟨asked, hcalls, hvisit⟩ := visit_of_judge hhere hjudge
      have hrequest : st.instruction.request = .offer number := by
        rw [Statement.choice?_eq_some.mp hchoice]
        rfl
      have hstage : (s₁.offer number).stage = s.stage :=
        (stage_offer s₁ number).trans (stage_judge hjudge)
      refine ⟨hstage, asked, (calls_offer s₁ number).trans hcalls, ?_⟩
      rw [hvisit, if_pos rfl, Stage.meet, hrequest]
      dsimp only
      rw [← walker_offer, List.append_nil]
      rfl
  | @held st s₁ hhere hjudge hchoice hopen =>
      obtain ⟨asked, hcalls, hvisit⟩ := visit_of_judge hhere hjudge
      have hslots := slots_ne_empty_iff.mpr hopen
      have hstage : s₁.stage = s.stage := stage_judge hjudge
      refine ⟨hstage, asked, hcalls, ?_⟩
      rw [hvisit, if_pos rfl, Stage.meet]
      rcases request_of_choice?_eq_none hchoice with ⟨e, hrequest⟩ | ⟨d, hrequest⟩ <;>
        rw [hrequest] <;> dsimp only <;> rw [if_neg hslots, List.append_nil] <;> rfl
  | ran hhere hjudge hchoice hopen hrun => exact visit_of_run hhere hjudge hchoice hopen hrun
  | awaited hhere hjudge hchoice hopen hrun => exact visit_of_run hhere hjudge hchoice hopen hrun
  | jumped hhere hjudge hchoice hopen hrun => exact visit_of_run hhere hjudge hchoice hopen hrun
  | choosing hend hopen =>
      refine ⟨rfl, [], hnothing s, ?_⟩
      rw [visit_of_atEnd hend, if_pos hopen]
      rfl
  | through hend hopen hnext =>
      refine ⟨rfl, [], hnothing s, ?_⟩
      rw [visit_of_atEnd hend, hopen, if_neg Bool.false_ne_true, if_pos hnext]
      rfl
  | ended hend hopen hlast =>
      refine ⟨stage_finish s, [], (calls_finish s).trans (hnothing s), ?_⟩
      rw [next_finish, visit_of_atEnd hend, hopen, if_neg Bool.false_ne_true,
        if_neg (Nat.not_lt.mpr hlast)]

/-- An activation is a walk of the machine. -/
theorem walk_of_activation {n : Nat} {s s' : Scene σ ω} (hactivation : Activation h n s s') :
    ∃ calls, s'.calls = s.calls ++ calls ∧
      s.stage.Walk h n s.walker calls s'.player.phase s'.walker := by
  induction hactivation with
  | halt hvisit =>
      obtain ⟨-, calls, hcalls, hvisit⟩ := visit_refines hvisit
      exact ⟨calls, hcalls, .stop hvisit⟩
  | on hvisit _ ih =>
      obtain ⟨hstage, calls, hcalls, hvisit⟩ := visit_refines hvisit
      obtain ⟨calls₁, hcalls₁, hrest⟩ := ih
      refine ⟨calls ++ calls₁, ?_, .on hvisit (hstage ▸ hrest)⟩
      rw [hcalls₁, ← List.append_assoc, ← hcalls]
      rfl
  | @missed n s s₁ s' name hvisit henter =>
      obtain ⟨hstage, calls, hcalls, hvisit⟩ := visit_refines hvisit
      obtain ⟨hfind, rfl⟩ := of_enter_false henter
      have hstage : s₁.stage = s.stage := hstage
      have hmissing : ∀ l ∈ s₁.stage.script.labels, l.name ≠ name :=
        Script.findLabel?_eq_none_iff.mp hfind
      have hended := walker_finish (s₁.remark (.missing name s₁.player.dialog))
      refine ⟨calls, ?_, ?_⟩
      · rw [calls_finish, calls_remark]
        exact hcalls
      · rw [hended, player_finish]
        exact .missed hvisit (hstage ▸ hmissing)
  | @spent s s₁ s₂ name hvisit henter =>
      obtain ⟨hstage, calls, hcalls, hvisit⟩ := visit_refines hvisit
      obtain ⟨i, hfind, rfl⟩ := of_enter_true henter
      have hstage : s₁.stage = s.stage := hstage
      have hlast : s₁.stage.script.IsLast name i := Script.isLast_of_findLabel? hfind
      refine ⟨calls, ?_, .spent hvisit (hstage ▸ hlast)⟩
      rw [calls_remark]
      exact (calls_remark s₁ _).trans hcalls
  | @jump n s s₁ s₂ s' name hvisit henter _ ih =>
      obtain ⟨hstage, calls, hcalls, hvisit⟩ := visit_refines hvisit
      obtain ⟨i, hfind, rfl⟩ := of_enter_true henter
      obtain ⟨calls₁, hcalls₁, hrest⟩ := ih
      have hstage : s₁.stage = s.stage := hstage
      have hlast : s₁.stage.script.IsLast name i := Script.isLast_of_findLabel? hfind
      have hentered : ((s₁.remark (.entered name)).enterAt i).calls = s.calls ++ calls :=
        (calls_remark s₁ _).trans hcalls
      have hrest : s₁.stage.Walk h (n + 1) (s₁.walker.startOf i) calls₁ s'.player.phase s'.walker :=
        hrest
      refine ⟨calls ++ calls₁, ?_, ?_⟩
      · rw [hcalls₁, ← List.append_assoc, ← hentered]
        rfl
      · exact .jump hvisit (hstage ▸ hlast) (hstage ▸ hrest)

/-- Running the player from its place is a walk of the machine. -/
theorem walk_advance (h : Host σ ω) (s : Scene σ ω) :
    ∃ calls, (s.advance h).calls = s.calls ++ calls ∧
      s.stage.Walk h (max 1 s.player.config.maxJumps) s.walker calls
        (s.advance h).player.phase (s.advance h).walker := by
  obtain ⟨calls, hcalls, hwalk⟩ := walk_of_activation (activation_advance (h := h) s)
  exact ⟨calls, hcalls, hwalk⟩

/-- From every scene, the interpreter makes the calls that the machine makes from the same place
with at most as many jumps as the player may make at once, in the same order, and stops in the phase
and at the place where the machine stops; and the machine can do nothing else. -/
theorem advance_refines (h : Host σ ω) (s : Scene σ ω) :
    ∃ calls, (s.advance h).calls = s.calls ++ calls ∧ ∀ calls' phase w,
      s.stage.Walk h (max 1 s.player.config.maxJumps) s.walker calls' phase w ↔
        calls' = calls ∧ phase = (s.advance h).player.phase ∧ w = (s.advance h).walker := by
  obtain ⟨calls, hcalls, hwalk⟩ := walk_advance h s
  refine ⟨calls, hcalls, fun calls' phase w => ⟨hwalk.unique, ?_⟩⟩
  rintro ⟨rfl, rfl, rfl⟩
  exact hwalk

end Scene

end DialogScript
