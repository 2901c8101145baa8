import DialogScript.Proofs.Player.Lead
import DialogScript.Proofs.Player.Transcript
import Mathlib.Algebra.GroupWithZero.Nat

/-!
# The work of an operation is bounded

No operation keeps its caller waiting: the conditions of a statement are evaluated at most once
between two jumps, and an operation makes a bounded number of jumps. What decreases is the number of
statements ahead, in the current label and the labels behind it, and with each jump the number of
jumps left.

That the loop comes to its end is shown of a loop that looks for the next statement anew in each
turn, counts its jumps upwards in a word and has only so many turns.

## Main definitions

* `Script.size`, `Player.ahead`: the statements of a script, and those from the cursor on
* `Event.isJudgement`, `Event.isJump`, `Scene.Effort`: the work that a transcript tells of
* `Scene.visit`, `Scene.loop`: a turn of the loop, and the loop
* `Scene.applyLoop`: an operation that runs statements by the loop

## Main results

* `Scene.effort_of_on`, `Scene.effort_of_halt`, `Scene.effort_of_jump`: the work of a visit
* `Scene.effort_of_activation`: the work of an activation
* `Scene.loop_of_activation`: the loop makes the activation, in a bounded number of turns
* `Scene.work_le_of_plays`: the work of an operation
-/

namespace DialogScript

/-- The number of statements of a script. -/
def Script.size (script : Script) : Nat := (script.labels.map (·.statements.length)).sum

namespace Event

variable {ω : Type}

/-- The conditions of a statement are evaluated. -/
def isJudgement : Event ω → Bool
  | judged .. => true
  | _ => false

/-- A jump is run. -/
def isJump : Event ω → Bool
  | call (.effect (.goto _)) => true
  | _ => false

theorem countP_of_isAside {p : Event ω → Bool} (hp : ∀ e, e.isAside = true → p e = false)
    {es : List (Event ω)} (haside : ∀ e ∈ es, e.isAside = true) : es.countP p = 0 := by
  rw [List.countP_eq_zero]
  intro e he
  simp [hp e (haside e he)]

theorem isJudgement_of_isAside {e : Event ω} (he : e.isAside = true) : e.isJudgement = false := by
  cases e with
  | judged => simp [isAside] at he
  | call | remark | used => rfl

theorem isJump_of_isAside {e : Event ω} (he : e.isAside = true) : e.isJump = false := by
  cases e with
  | call c =>
      cases c with
      | effect => simp [isAside] at he
      | delay | poll | code | scope => rfl
  | judged | remark | used => rfl

end Event

namespace Scene

variable {σ ω : Type} {h : Host σ ω}

/-! ### Effort -/

/-- From one scene to another, the conditions of at most so many statements are evaluated and at
most so many jumps are run. -/
def Effort (statements jumps : Nat) (s s' : Scene σ ω) : Prop :=
  ∃ more, s'.events = s.events ++ more ∧ more.countP Event.isJudgement ≤ statements ∧
    more.countP Event.isJump ≤ jumps

namespace Effort

variable {a b c d : Nat}

theorem trans {s s₁ s' : Scene σ ω} (h₁ : Effort a b s s₁) (h₂ : Effort c d s₁ s') :
    Effort (a + c) (b + d) s s' := by
  obtain ⟨more₁, hevents₁, hjudged₁, hjumps₁⟩ := h₁
  obtain ⟨more₂, hevents₂, hjudged₂, hjumps₂⟩ := h₂
  refine ⟨more₁ ++ more₂, by rw [hevents₂, hevents₁, List.append_assoc], ?_, ?_⟩
  · rw [List.countP_append]
    exact Nat.add_le_add hjudged₁ hjudged₂
  · rw [List.countP_append]
    exact Nat.add_le_add hjumps₁ hjumps₂

theorem mono {s s' : Scene σ ω} (h : Effort a b s s') (hac : a ≤ c) (hbd : b ≤ d) :
    Effort c d s s' := by
  obtain ⟨more, hevents, hjudged, hjumps⟩ := h
  exact ⟨more, hevents, Nat.le_trans hjudged hac, Nat.le_trans hjumps hbd⟩

theorem of_asides {s s' : Scene σ ω} (h : Appends Event.isAside s s') : Effort 0 0 s s' := by
  obtain ⟨more, hevents, haside⟩ := h
  refine ⟨more, hevents, ?_, ?_⟩
  · exact Nat.le_of_eq (Event.countP_of_isAside (fun _ => Event.isJudgement_of_isAside) haside)
  · exact Nat.le_of_eq (Event.countP_of_isAside (fun _ => Event.isJump_of_isAside) haside)

theorem of_events_eq {s s' : Scene σ ω} (h : s'.events = s.events) : Effort 0 0 s s' :=
  of_asides (.of_events_eq h)

end Effort

theorem effort_judge {s s₁ : Scene σ ω} {st : Statement} {accepted : Bool}
    (hjudge : s.judge h st = (accepted, s₁)) : Effort 1 0 s s₁ := by
  obtain ⟨more, haside, hevents⟩ := asides_judge hjudge
  rw [List.append_assoc] at hevents
  refine ⟨_, hevents, ?_, ?_⟩ <;> rw [List.countP_append]
  · rw [Event.countP_of_isAside (fun _ => Event.isJudgement_of_isAside) haside]
    exact Nat.le_refl 1
  · rw [Event.countP_of_isAside (fun _ => Event.isJump_of_isAside) haside]
    exact Nat.le_refl 0

/-- Running a statement makes a jump at most, and none unless one follows. -/
theorem effort_run {s s₁ : Scene σ ω} {st : Statement} {flow : Flow ω}
    (hrun : s.run h st = (flow, s₁)) :
    Effort 0 (match flow with | .jump _ => 1 | _ => 0) s s₁ := by
  obtain ⟨r, calls, hcalls, hevents⟩ := calls_run hrun
  rw [List.append_assoc] at hevents
  refine ⟨_, hevents, ?_, ?_⟩
  · simp [List.countP_map, Event.isJudgement, Function.comp_def]
  · cases flow with
    | next =>
        rcases hcalls with rfl | ⟨e, rfl, he⟩
        · simp [Event.isJump]
        · cases e <;> simp_all [Event.isJump]
    | wait handle =>
        obtain ⟨d, rfl⟩ := hcalls
        simp [Event.isJump]
    | jump name =>
        obtain rfl := hcalls
        exact Nat.le_refl 1

/-! ### What is ahead -/

/-- The number of statements from the cursor on, in the current label and those behind it. -/
def ahead (s : Scene σ ω) : Nat :=
  match s.labelsAhead with
  | [] => 0
  | l :: ls => l.statements.length - s.player.cursor + Script.size ⟨ls⟩

/-- The number of turns that come to the statements and the ends of the labels ahead, and one more
for a place without a label. -/
def turnsAhead (s : Scene σ ω) : Nat := s.ahead + s.labelsAhead.length + 1

theorem size_drop_le (script : Script) (i : Nat) :
    Script.size ⟨script.labels.drop i⟩ ≤ script.size := by
  have hsplit := congrArg (fun ls => Script.size ⟨ls⟩) (List.take_append_drop i script.labels)
  simp only [Script.size, List.map_append, List.sum_append_nat] at hsplit ⊢
  omega

theorem ahead_le (s : Scene σ ω) : s.ahead ≤ s.player.script.size := by
  rw [ahead, labelsAhead]
  cases hlabel : s.player.label with
  | none => exact Nat.zero_le _
  | some i =>
      have hsize := size_drop_le s.player.script i
      simp only [Option.elim_some]
      split
      · exact Nat.zero_le _
      · rename_i l ls hdrop
        rw [hdrop] at hsize
        simp only [Script.size, List.map_cons, List.sum_cons] at hsize ⊢
        omega

theorem turnsAhead_le (s : Scene σ ω) :
    s.turnsAhead ≤ s.player.script.size + s.player.script.labels.length + 1 := by
  have hlabels : s.labelsAhead.length ≤ s.player.script.labels.length := by
    rw [labelsAhead]
    cases s.player.label with
    | none => exact Nat.zero_le _
    | some i =>
        rw [Option.elim_some, List.length_drop]
        exact Nat.sub_le _ _
  have := s.ahead_le
  rw [turnsAhead]
  omega

theorem labelsAhead_of_label {s : Scene σ ω} {i : Nat} {l : Label}
    (hlabel : s.player.label = some i) (hl : s.player.script.labels[i]? = some l) :
    s.labelsAhead = l :: s.player.script.labels.drop (i + 1) := by
  obtain ⟨hi, rfl⟩ := List.getElem?_eq_some_iff.mp hl
  rw [labelsAhead, hlabel, Option.elim_some, List.drop_eq_getElem_cons hi]

/-- Behind a statement there is one statement less ahead. -/
theorem ahead_forward {s t : Scene σ ω} {st : Statement} (hhere : s.player.here? = some st)
    (hkept : Kept s t) (hlabel : t.player.label = s.player.label)
    (hcursor : t.player.cursor = s.player.cursor + 1) :
    1 + t.ahead = s.ahead ∧ t.turnsAhead + 1 = s.turnsAhead := by
  obtain ⟨l, hl, hst⟩ := Option.bind_eq_some_iff.mp hhere
  obtain ⟨i, hi, hget⟩ := Option.bind_eq_some_iff.mp hl
  obtain ⟨hlt, -⟩ := List.getElem?_eq_some_iff.mp hst
  have hhead := labelsAhead_of_label hi hget
  have hhead' : t.labelsAhead = s.labelsAhead := by
    rw [labelsAhead, labelsAhead, hlabel, hkept.script]
  simp only [turnsAhead, ahead, hhead', hhead, hcursor, List.length_cons]
  omega

/-- Behind the end of a label that is not the last there are as many statements ahead, and one label
less. -/
theorem ahead_through {s s' : Scene σ ω} {i : Nat} (hend : s.player.AtEnd i)
    (hnext : i + 1 < s.player.script.labels.length) (hkept : Kept s s')
    (hlabel : s'.player.label = some (i + 1)) (hcursor : s'.player.cursor = 0) :
    s'.ahead = s.ahead ∧ s'.turnsAhead + 1 = s.turnsAhead := by
  obtain ⟨hi, l, hget, hle⟩ := hend
  have hhead := labelsAhead_of_label hi hget
  have hget' : s'.player.script.labels[i + 1]? = some s.player.script.labels[i + 1] := by
    rw [hkept.script, List.getElem?_eq_getElem hnext]
  have hhead' := labelsAhead_of_label hlabel hget'
  have hdrop := List.drop_eq_getElem_cons hnext
  simp only [turnsAhead, ahead, hhead', hhead, hcursor, hkept.script, hdrop, Script.size,
    List.map_cons, List.sum_cons, List.length_cons]
  omega

/-! ### Visits -/

/-- A visit that leads on evaluates no more conditions than there are statements less ahead. -/
theorem effort_of_on {s s' : Scene σ ω} (hvisit : Visit h s (.on s')) :
    (∃ k, Effort k 0 s s' ∧ k + s'.ahead = s.ahead) ∧ s'.turnsAhead + 1 = s.turnsAhead := by
  have hkept := kept_of_visit hvisit
  cases hvisit with
  | @rejected st s₁ hhere hjudge =>
      have hplayer := player_of_judge hjudge
      obtain ⟨hahead, hturns⟩ := ahead_forward hhere hkept (t := s₁.step)
        (by simp [hplayer]) (by simp [hplayer])
      exact ⟨⟨1, (effort_judge hjudge).trans (.of_events_eq rfl), hahead⟩, hturns⟩
  | @offered st s₁ number text target hhere hjudge hchoice =>
      have hplayer := player_of_judge hjudge
      obtain ⟨slots, hoffer⟩ := player_offer s₁ number
      obtain ⟨hahead, hturns⟩ := ahead_forward hhere hkept (t := (s₁.offer number).step)
        (by simp [hoffer, hplayer]) (by simp [hoffer, hplayer])
      have hasides : Effort 0 0 s₁ (s₁.offer number).step :=
        (Effort.of_asides (asides_offer s₁ number)).trans (.of_events_eq rfl)
      exact ⟨⟨1, (effort_judge hjudge).trans hasides, hahead⟩, hturns⟩
  | @ran st s₁ s₂ hhere hjudge hchoice hopen hrun =>
      have hplayer := player_of_judge hjudge
      have hran := player_of_run hrun
      obtain ⟨hahead, hturns⟩ := ahead_forward hhere hkept (t := s₂.step)
        (by simp [hran, hplayer]) (by simp [hran, hplayer])
      have hstep : Effort 0 0 s₁ s₂.step := (effort_run hrun).trans (.of_events_eq rfl)
      exact ⟨⟨1, (effort_judge hjudge).trans hstep, hahead⟩, hturns⟩
  | @through i hend hopen hnext =>
      obtain ⟨hahead, hturns⟩ := ahead_through hend hnext hkept rfl rfl
      exact ⟨⟨0, .of_events_eq rfl, (Nat.zero_add _).trans hahead⟩, hturns⟩

/-- There is a statement ahead if there is one at the cursor. -/
theorem ahead_pos {s : Scene σ ω} {st : Statement} (hhere : s.player.here? = some st) :
    1 ≤ s.ahead := by
  obtain ⟨hahead, -⟩ := ahead_forward hhere (t := s.step) ⟨rfl, rfl, rfl⟩ rfl rfl
  omega

/-- A visit that ends an activation evaluates the conditions of a statement ahead at most. -/
theorem effort_of_halt {s s' : Scene σ ω} (hvisit : Visit h s (.halt s')) :
    Effort s.ahead 0 s s' := by
  cases hvisit with
  | nowhere | ended =>
      exact (Effort.of_asides (asides_finish s)).mono (Nat.zero_le _) (Nat.le_refl 0)
  | choosing => exact (Effort.of_events_eq rfl).mono (Nat.zero_le _) (Nat.le_refl 0)
  | @held st s₁ hhere hjudge =>
      have hstop : Effort 1 0 s (s₁.inPhase .choosing) :=
        (effort_judge hjudge).trans (.of_events_eq rfl)
      exact hstop.mono (ahead_pos hhere) (Nat.le_refl 0)
  | @awaited st s₁ s₂ handle hhere hjudge hchoice hopen hrun =>
      have hwait : Effort 0 0 s₁ (s₂.await handle) := (effort_run hrun).trans (.of_events_eq rfl)
      exact ((effort_judge hjudge).trans hwait).mono (ahead_pos hhere) (Nat.le_refl 0)

/-- A visit that asks for a jump evaluates the conditions of a statement ahead. -/
theorem effort_of_jump {s s' : Scene σ ω} {name : String} (hvisit : Visit h s (.jump name s')) :
    Effort s.ahead 1 s s' := by
  cases hvisit with
  | jumped hhere hjudge hchoice hopen hrun =>
      exact ((effort_judge hjudge).trans (effort_run hrun)).mono (ahead_pos hhere) (Nat.le_refl 1)

/-! ### Activations -/

/-- An activation with at most `n + 1` jumps evaluates the conditions ahead, and those of a whole
script behind each jump but the last. -/
theorem effort_of_activation {n : Nat} {s s' : Scene σ ω} (hactivation : Activation h n s s')
    (hn : 0 < n) : Effort (s.ahead + (n - 1) * s.player.script.size) n s s' := by
  induction hactivation with
  | halt hvisit => exact (effort_of_halt hvisit).mono (Nat.le_add_right _ _) (Nat.zero_le _)
  | @on n s s₁ s' hvisit _ ih =>
      obtain ⟨⟨k, heffort, hahead⟩, -⟩ := effort_of_on hvisit
      have hscript : s₁.player.script = s.player.script := (kept_of_visit hvisit).script
      refine (heffort.trans (ih hn)).mono (Nat.le_of_eq ?_) (Nat.le_of_eq (Nat.zero_add _))
      rw [← hahead, ← hscript, Nat.add_assoc]
  | missed hvisit henter =>
      have henter : Effort 0 0 _ _ := .of_asides (asides_enter henter)
      exact ((effort_of_jump hvisit).trans henter).mono (Nat.le_add_right _ _) hn
  | @spent s s₁ s₂ name hvisit henter =>
      have henter : Effort 0 0 s₁ s₂ := .of_asides (asides_enter henter)
      have hremark : Effort 0 0 s₂ ((s₂.inPhase .running).remark (.jumpsSpent name)) :=
        .of_asides (asides_remark (s₂.inPhase .running) _)
      exact (((effort_of_jump hvisit).trans henter).trans hremark).mono (Nat.le_add_right _ _)
        (Nat.le_refl 1)
  | @jump n s s₁ s₂ s' name hvisit henter _ ih =>
      have hentered : Effort 0 0 s₁ (s₂.inPhase .running) :=
        (Effort.of_asides (asides_enter henter)).trans (.of_events_eq rfl)
      have hentry : Kept s s₂ := (kept_of_visit hvisit).trans (kept_of_enter henter)
      have hscript : (s₂.inPhase .running).player.script = s.player.script := hentry.1
      have hahead := ahead_le (s₂.inPhase .running)
      refine (((effort_of_jump hvisit).trans hentered).trans (ih (Nat.succ_pos n))).mono ?_ ?_
      · rw [hscript] at hahead ⊢
        rw [show n + 2 - 1 = n + 1 from rfl, Nat.add_sub_cancel, Nat.succ_mul]
        omega
      · omega

/-- Running statements with at most so many jumps evaluates the conditions of no statement more
often. -/
theorem effort_advance (h : Host σ ω) (s : Scene σ ω) :
    Effort (max 1 s.player.config.maxJumps * s.player.script.size)
      (max 1 s.player.config.maxJumps) s (s.advance h) := by
  have hpos : 0 < max 1 s.player.config.maxJumps := by omega
  have heffort := effort_of_activation (activation_advance (h := h) s) hpos
  have hahead : (s.inPhase .running).ahead ≤ s.player.script.size := ahead_le _
  have hstart : Effort 0 0 s (s.inPhase .running) := .of_events_eq rfl
  refine (hstart.trans heffort).mono ?_ (Nat.le_of_eq (Nat.zero_add _))
  obtain ⟨n, hn⟩ := Nat.exists_eq_succ_of_ne_zero (Nat.ne_of_gt hpos)
  rw [hn, Nat.succ_mul, Nat.succ_sub_one, Nat.zero_add, Nat.add_comm]
  exact Nat.add_le_add_left hahead _

/-! ### The loop -/

variable (h) in
/-- A turn of the loop: the player looks for the statement at its place and visits it. -/
def visit (s : Scene σ ω) : Outcome σ ω :=
  match s.stage.place? s.walker with
  | none => .halt s.finish
  | some (i, l) =>
    match l.statements[s.player.cursor]? with
    | none =>
      if s.player.hasChoices then .halt (s.inPhase .choosing)
      else if i + 1 < s.player.script.labels.length then
        .on ((s.enterAt (i + 1)).inPhase .running)
      else .halt s.finish
    | some st =>
      match s.judge h st with
      | (false, s) => .on s.step
      | (true, s) =>
        match st.choice? with
        | some (number, _, _) => .on (s.offer number).step
        | none =>
          if s.player.hasChoices then .halt (s.inPhase .choosing)
          else
            match s.run h st with
            | (.next, s) => .on s.step
            | (.wait handle, s) => .halt (s.await handle)
            | (.jump name, s) => .jump name s

variable (h) in
/-- The loop, with a number of turns it may take. It counts its jumps in a word of `bits` bits.
There is no scene if the turns or the bits do not suffice. -/
def loop (bits : Nat) : (turns jumps : Nat) → Scene σ ω → Option (Scene σ ω)
  | 0, _, _ => none
  | turns + 1, jumps, s =>
    match s.visit h with
    | .halt s => some s
    | .on s => loop bits turns jumps s
    | .jump name s =>
      match s.enter name with
      | (false, s) => some s
      | (true, s) =>
        let s := s.inPhase .running
        if 2 ^ bits ≤ jumps + 1 then none
        else if s.player.config.maxJumps ≤ jumps + 1 then some (s.remark (.jumpsSpent name))
        else loop bits turns (jumps + 1) s

/-- A turn of the loop is a visit. -/
theorem visit_eq_of_visit {s : Scene σ ω} {o : Outcome σ ω} (hvisit : Visit h s o) :
    s.visit h = o := by
  have hcursor : s.player.cursor = s.walker.cursor := rfl
  cases hvisit with
  | nowhere hlabel => simp only [visit, place?_of_nowhere hlabel]
  | rejected hhere hjudge =>
      obtain ⟨i, l, hi, hl⟩ := place?_of_here? hhere
      simp only [visit, hi, hcursor, hl, hjudge]
  | offered hhere hjudge hchoice =>
      obtain ⟨i, l, hi, hl⟩ := place?_of_here? hhere
      simp only [visit, hi, hcursor, hl, hjudge, hchoice]
  | held hhere hjudge hchoice hopen =>
      obtain ⟨i, l, hi, hl⟩ := place?_of_here? hhere
      simp only [visit, hi, hcursor, hl, hjudge, hchoice, hopen, if_true]
  | ran hhere hjudge hchoice hopen hrun | awaited hhere hjudge hchoice hopen hrun
  | jumped hhere hjudge hchoice hopen hrun =>
      obtain ⟨i, l, hi, hl⟩ := place?_of_here? hhere
      simp only [visit, hi, hcursor, hl, hjudge, hchoice, hopen, hrun, Bool.false_eq_true,
        if_false]
  | choosing hend hopen =>
      obtain ⟨l, hi, hl⟩ := place?_of_atEnd hend
      simp only [visit, hi, hcursor, hl, hopen, if_true]
  | through hend hopen hnext =>
      obtain ⟨l, hi, hl⟩ := place?_of_atEnd hend
      simp only [visit, hi, hcursor, hl, hopen, hnext, Bool.false_eq_true, if_true, if_false]
  | ended hend hopen hlast =>
      obtain ⟨l, hi, hl⟩ := place?_of_atEnd hend
      simp only [visit, hi, hcursor, hl, hopen, Nat.not_lt.mpr hlast, Bool.false_eq_true,
        if_false]

/-- The turns from one place of a script to the end of the activation, or to a jump. -/
def turnsPerJump (script : Script) : Nat := script.size + script.labels.length + 1

theorem exists_turn {s : Scene σ ω} {k turns : Nat} (hturns : s.turnsAhead + k ≤ turns) :
    ∃ t, turns = t + 1 := by
  rw [turnsAhead] at hturns
  exact ⟨turns - 1, by omega⟩

/-- The loop makes the activation. What it has counted and the jumps that the activation may make
are together the jumps that the player may make at once. -/
theorem loop_of_activation {n : Nat} {s s' : Scene σ ω} (hactivation : Activation h n s s')
    {bits turns jumps : Nat} (hn : 0 < n) (hjumps : jumps + n = max 1 s.player.config.maxJumps)
    (hbits : max 1 s.player.config.maxJumps < 2 ^ bits)
    (hturns : s.turnsAhead + (n - 1) * turnsPerJump s.player.script ≤ turns) :
    s.loop h bits turns jumps = some s' := by
  induction hactivation generalizing turns jumps with
  | halt hvisit =>
      obtain ⟨turns, rfl⟩ := exists_turn hturns
      rw [loop, visit_eq_of_visit hvisit]
  | @on n s s₁ s' hvisit _ ih =>
      obtain ⟨turns, rfl⟩ := exists_turn hturns
      obtain ⟨hscript, hconfig, -⟩ : Kept s s₁ := kept_of_visit hvisit
      obtain ⟨-, hless⟩ := effort_of_on hvisit
      rw [← hscript, ← hless] at hturns
      rw [← hconfig] at hjumps hbits
      rw [loop, visit_eq_of_visit hvisit]
      exact ih hn hjumps hbits (by omega)
  | missed hvisit henter =>
      obtain ⟨turns, rfl⟩ := exists_turn hturns
      simp only [loop, visit_eq_of_visit hvisit, henter]
  | @spent s s₁ s₂ name hvisit henter =>
      obtain ⟨turns, rfl⟩ := exists_turn hturns
      obtain ⟨-, hconfig, -⟩ : Kept s s₂ := (kept_of_visit hvisit).trans (kept_of_enter henter)
      have hfits : ¬2 ^ bits ≤ jumps + 1 := by omega
      have hspent : s₂.player.config.maxJumps ≤ jumps + 1 := by
        rw [hconfig]
        omega
      simp only [loop, visit_eq_of_visit hvisit, henter, if_neg hfits]
      exact if_pos hspent
  | @jump n s s₁ s₂ s' name hvisit henter _ ih =>
      obtain ⟨turns, rfl⟩ := exists_turn hturns
      obtain ⟨hscript, hconfig, -⟩ : Kept s s₂ :=
        (kept_of_visit hvisit).trans (kept_of_enter henter)
      have hless := turnsAhead_le (s₂.inPhase .running)
      have hfits : ¬2 ^ bits ≤ jumps + 1 := by omega
      have hleft : ¬s₂.player.config.maxJumps ≤ jumps + 1 := by
        rw [hconfig]
        omega
      rw [← hscript] at hturns
      rw [← hconfig] at hjumps hbits
      simp only [loop, visit_eq_of_visit hvisit, henter, if_neg hfits]
      refine (if_neg hleft).trans (ih (Nat.succ_pos n) ?_ hbits ?_)
      · change jumps + 1 + (n + 1) = max 1 s₂.player.config.maxJumps
        omega
      · change (s₂.inPhase .running).turnsAhead ≤ turnsPerJump s₂.player.script at hless
        change (s₂.inPhase .running).turnsAhead + n * turnsPerJump s₂.player.script ≤ turns
        rw [show n + 2 - 1 = n + 1 from rfl, Nat.succ_mul, turnsAhead] at hturns
        omega

/-- The loop makes the activation that runs the player from its place. -/
theorem loop_eq_advance (h : Host σ ω) (s : Scene σ ω) {bits : Nat}
    (hbits : max 1 s.player.config.maxJumps < 2 ^ bits) :
    (s.inPhase .running).loop h bits
      (max 1 s.player.config.maxJumps * turnsPerJump s.player.script) 0 = some (s.advance h) := by
  have hpos : 0 < max 1 s.player.config.maxJumps := by omega
  refine loop_of_activation (activation_advance s) hpos (Nat.zero_add _) hbits ?_
  have hless : (s.inPhase .running).turnsAhead ≤ turnsPerJump s.player.script := turnsAhead_le _
  obtain ⟨n, hn⟩ := Nat.exists_eq_succ_of_ne_zero (Nat.ne_of_gt hpos)
  rw [hn, Nat.succ_mul, Nat.succ_sub_one, Nat.add_comm]
  exact Nat.add_le_add_left hless _

/-! ### Operations -/

/-- An operation plays a script: the current one, or one that it starts. -/
inductive Plays (s : Scene σ ω) : Operation → Script → Prop
  | update : Plays s .update s.player.script
  | choose (choice : Nat) : Plays s (.choose choice) s.player.script
  | goTo (label : String) : Plays s (.goTo label) s.player.script
  | startSource {actor dialog label source : String} {script : Script}
      (hread : Script.read source = .ok script) :
      Plays s (.startSource actor dialog label source) script

variable (h) in
/-- The scene after an operation that runs statements by the loop. -/
def applyLoop (bits turns : Nat) (s : Scene σ ω) (op : Operation) : Option (Scene σ ω) :=
  match s.lead h op with
  | (true, s) => (s.inPhase .running).loop h bits turns 0
  | (false, s) => some s

theorem effort_enter (s : Scene σ ω) (name : String) : Effort 0 0 s (s.enter name).2 :=
  .of_asides (asides_enter rfl)

theorem effort_goOn (s : Scene σ ω) : Effort 0 0 s s.goOn.2 := by
  rw [goOn]
  split
  · exact effort_enter { s with player := _ } _
  · exact .of_events_eq rfl

/-- Polling does no work. -/
theorem effort_pollWait {s s' : Scene σ ω} {ready : Bool} (hpoll : s.pollWait h = (ready, s')) :
    Effort 0 0 s s' := by
  refine ⟨_, events_pollWait hpoll, ?_, ?_⟩ <;>
    simp [List.countP_map, Function.comp_def, Event.isJudgement, Event.isJump]

theorem effort_resume (h : Host σ ω) (s : Scene σ ω) : Effort 0 0 s (s.resume h).2 := by
  rw [resume]
  rcases hpoll : s.pollWait h with ⟨_ | _, s'⟩
  · exact effort_pollWait hpoll
  · exact (effort_pollWait hpoll).trans (effort_goOn s')

theorem effort_awaken (h : Host σ ω) (s : Scene σ ω) : Effort 0 0 s (s.awaken h).2 := by
  by_cases hs : s.Waits
  · rw [awaken_of_waits h hs]
    exact effort_resume h s
  · obtain ⟨goes, hlead⟩ := awaken_of_not_waits h hs
    rw [hlead]
    exact .of_events_eq rfl

/-- Using a statement does no work. -/
theorem effort_use (s : Scene σ ω) (st : Statement) : Effort 0 0 s (s.use st) :=
  ⟨_, events_use s st, Nat.le_refl 0, Nat.le_refl 0⟩

/-- Beginning to say a choice does no work. -/
theorem effort_echo (s : Scene σ ω) (text target : String) :
    Effort 0 0 s (s.echo h text target) := by
  obtain ⟨handle, -, hevents⟩ := events_echo (h := h) s text target
  exact ⟨_, hevents, Nat.le_refl 0, Nat.le_refl 0⟩

theorem effort_pick (h : Host σ ω) (s : Scene σ ω) (choice : Nat) :
    Effort 0 0 s (s.pick h choice).2 := by
  have hremark (r : Remark) : Effort 0 0 s (s.remark r) := .of_asides (asides_remark s r)
  rw [pick]
  split
  · exact hremark _
  · split
    · exact hremark _
    · split
      · exact .of_events_eq rfl
      · split
        · exact (effort_use s _).trans (effort_echo _ _ _)
        · exact (effort_use s _).trans (effort_enter _ _)

/-- The lead of an operation does no work and leaves the player in the script that is played. -/
theorem effort_lead (h : Host σ ω) (s : Scene σ ω) {op : Operation} {script : Script}
    (hplays : s.Plays op script) : Effort 0 0 s (s.lead h op).2 ∧
      (s.lead h op).2.player.script = script ∧
      (s.lead h op).2.player.config = s.player.config := by
  cases hplays with
  | update => exact ⟨effort_awaken h s, (kept_awaken h s).script, (kept_awaken h s).config⟩
  | choose choice =>
      exact ⟨effort_pick h s choice, (kept_pick h s choice).script, (kept_pick h s choice).config⟩
  | goTo label =>
      exact ⟨effort_enter s label, (kept_enter s label).script, (kept_enter s label).config⟩
  | @startSource actor dialog label source script hread =>
      have hlead : s.lead h (.startSource actor dialog label source) =
          (s.opened actor dialog label source script).enter label := by
        simp only [lead, opening, hread]
      have hopened : Effort 0 0 s (s.opened actor dialog label source script) :=
        .of_asides (((asides_reset s).trans (asides_reading s source)).trans
          (asides_opened s actor dialog label source script))
      have hconfig : (s.opened actor dialog label source script).player.config =
          s.player.config := by
        rw [player_opened, Player.dismissed]
      obtain ⟨hscript', hconfig', -⟩ := kept_enter (s.opened actor dialog label source script) label
      rw [hlead]
      refine ⟨hopened.trans (effort_enter _ label), ?_, hconfig'.trans hconfig⟩
      rw [hscript', player_opened]

/-- An operation that plays a script evaluates the conditions of its statements at most once for
each jump that the player may make at once, and makes at most so many jumps. It comes to its end
also by the loop, whose count of jumps fits into every word that holds the configured number. -/
theorem work_le_of_plays (h : Host σ ω) (s : Scene σ ω) {op : Operation} {script : Script}
    (hplays : s.Plays op script) {bits : Nat} (hpos : 0 < bits)
    (hbits : s.player.config.maxJumps < 2 ^ bits) :
    let jumps := max 1 s.player.config.maxJumps
    s.applyLoop h bits (jumps * (script.size + script.labels.length + 1)) op =
        some (s.apply h op) ∧
      Effort (jumps * script.size) jumps s (s.apply h op) := by
  obtain ⟨heffort, hscript, hconfig⟩ := effort_lead h s hplays
  have hfits : max 1 s.player.config.maxJumps < 2 ^ bits := by
    have := Nat.one_lt_two_pow (Nat.ne_of_gt hpos)
    omega
  simp only [apply_eq_proceed, applyLoop]
  rcases hlead : s.lead h op with ⟨_ | _, s'⟩ <;> rw [hlead] at heffort hscript hconfig <;>
    dsimp only at heffort hscript hconfig ⊢
  · exact ⟨rfl, heffort.mono (Nat.zero_le _) (Nat.zero_le _)⟩
  · subst hscript
    rw [← hconfig] at hfits ⊢
    refine ⟨loop_eq_advance h s' hfits, ?_⟩
    exact (heffort.trans (effort_advance h s')).mono (Nat.le_of_eq (Nat.zero_add _))
      (Nat.le_of_eq (Nat.zero_add _))

/-- A label that jumps back to itself. -/
def circle : Script := ⟨[⟨"s", [⟨.code "x", []⟩, ⟨.goto "s", []⟩]⟩]⟩

/-- On a circle the bounds are reached. -/
theorem work_of_circle :
    let s : Scene Unit Unit := fresh (fun _ => .ok "") { maxJumps := 3 } {} ()
    let op : Operation := .startSource "a" "d" "s" ":s\n!x\n-> s"
    s.Plays op circle ∧ 0 < 64 ∧ s.player.config.maxJumps < 2 ^ 64 ∧
      s.applyLoop Host.instant 64 12 op = some (s.apply Host.instant op) ∧
      Effort 6 3 s (s.apply Host.instant op) ∧
      (s.apply Host.instant op).events.countP Event.isJudgement = 6 ∧
      (s.apply Host.instant op).events.countP Event.isJump = 3 := by
  intro s op
  have hplays : s.Plays op circle := .startSource (by rfl)
  have hfits : s.player.config.maxJumps < 2 ^ 64 := by decide
  obtain ⟨hloop, heffort⟩ := work_le_of_plays Host.instant s hplays (by decide : 0 < 64) hfits
  exact ⟨hplays, by decide, hfits, hloop, heffort, by decide +kernel, by decide +kernel⟩

end Scene

end DialogScript
