import DialogScript.Proofs.Player.Frame
import Mathlib.Logic.Relation

/-!
# Visits

Between two calls of its owner a player goes from statement to statement. A *visit* is what happens
at one place: a statement is judged and passed over, offered or run, or the end of a label is
reached. A visit leads on to another place, asks for a jump, or ends the activation. This file says
once what a visit can do and shows that the nested loops of the interpreter make visit after visit;
whatever all visits keep is then kept by every activation.

## Main definitions

* `Script.IsLast`: the label that a name stands for
* `Player.here?`, `Player.AtEnd`: the statement at the cursor, and the end of the label
* `Outcome`, `Scene.Visit`: what a visit leads to, and the visits of a scene
* `Scene.Activation`: visits and jumps up to the end of an activation

## Main results

* `Scene.activation_advance`: the interpreter makes an activation
* `Scene.Activation.induct`: what visits keep is kept along an activation
-/

namespace DialogScript

/-! ### Labels -/

namespace Script

/-- The label at a place is the last one of its name. -/
def IsLast (script : Script) (name : String) (i : Nat) : Prop :=
  (∃ l, script.labels[i]? = some l ∧ l.name = name) ∧
    ∀ j l, i < j → script.labels[j]? = some l → l.name ≠ name

theorem lastIndex?_eq_none_iff {α : Type} {p : α → Bool} {xs : List α} :
    lastIndex? p xs = none ↔ ∀ x ∈ xs, p x = false := by
  induction xs with
  | nil => simp [lastIndex?]
  | cons x xs ih =>
      rw [lastIndex?, List.forall_mem_cons, ← ih]
      split <;> simp_all

/-- A search from the end finds the last place of its kind. -/
theorem of_lastIndex? {α : Type} {p : α → Bool} {xs : List α} {i : Nat}
    (hfind : lastIndex? p xs = some i) :
    (∃ x, xs[i]? = some x ∧ p x = true) ∧ ∀ j x, i < j → xs[j]? = some x → p x = false := by
  induction xs generalizing i with
  | nil => simp [lastIndex?] at hfind
  | cons x xs ih =>
      rw [lastIndex?] at hfind
      split at hfind
      · rename_i k hk
        obtain rfl := Option.some.inj hfind
        obtain ⟨hhere, hbehind⟩ := ih hk
        refine ⟨hhere, fun j y hlt hj => ?_⟩
        obtain ⟨j, rfl⟩ : ∃ j', j = j' + 1 := ⟨j - 1, by omega⟩
        exact hbehind j y (by omega) hj
      · rename_i hnone
        split at hfind
        · obtain rfl := Option.some.inj hfind
          refine ⟨⟨x, rfl, ‹_›⟩, fun j y hlt hj => ?_⟩
          obtain ⟨j, rfl⟩ : ∃ j', j = j' + 1 := ⟨j - 1, by omega⟩
          exact lastIndex?_eq_none_iff.mp hnone y (List.mem_of_getElem? hj)
        · cases hfind

theorem isLast_of_findLabel? {script : Script} {name : String} {i : Nat}
    (hfind : script.findLabel? name = some i) : script.IsLast name i := by
  obtain ⟨⟨l, hl, hname⟩, hbehind⟩ := of_lastIndex? hfind
  refine ⟨⟨l, hl, of_decide_eq_true hname⟩, fun j l' hlt hj => ?_⟩
  exact of_decide_eq_false (hbehind j l' hlt hj)

theorem findLabel?_eq_none_iff {script : Script} {name : String} :
    script.findLabel? name = none ↔ ∀ l ∈ script.labels, l.name ≠ name := by
  rw [findLabel?, lastIndex?_eq_none_iff]
  simp only [decide_eq_false_iff_not, ne_eq]

/-- There is one last label of a name at most. -/
theorem IsLast.unique {script : Script} {name : String} {i j : Nat} (hi : script.IsLast name i)
    (hj : script.IsLast name j) : i = j := by
  obtain ⟨⟨l, hl, hname⟩, hbehind⟩ := hi
  obtain ⟨⟨l', hl', hname'⟩, hbehind'⟩ := hj
  rcases Nat.lt_trichotomy i j with hlt | heq | hlt
  · exact absurd hname' (hbehind j l' hlt hl')
  · exact heq
  · exact absurd hname (hbehind' i l hlt hl)

end Script

namespace Player

variable {ω : Type}

/-- The statement at the cursor. -/
def here? (p : Player ω) : Option Statement := p.statement? p.cursor

/-- The cursor is behind the last statement of the label at the place `i` of the script. -/
def AtEnd (p : Player ω) (i : Nat) : Prop :=
  p.label = some i ∧ ∃ l, p.script.labels[i]? = some l ∧ l.statements.length ≤ p.cursor

theorem label?_of_label {p : Player ω} {i : Nat} (h : p.label = some i) :
    p.label? = p.script.labels[i]? := by
  simp [label?, h]

theorem statement?_of_label? {p : Player ω} {l : Label} (h : p.label? = some l) (k : Nat) :
    p.statement? k = l.statements[k]? := by
  simp [statement?, h]

/-- What stands at a place of the label depends on the script and the label only. -/
theorem statement?_congr {p q : Player ω} (hscript : p.script = q.script)
    (hlabel : p.label = q.label) (k : Nat) : p.statement? k = q.statement? k := by
  simp [statement?, label?, hscript, hlabel]

end Player

namespace Scene

variable {σ ω : Type} {h : Host σ ω}

theorem here?_judge {s s₁ : Scene σ ω} {st : Statement} {accepted : Bool}
    (hjudge : s.judge h st = (accepted, s₁)) : s₁.player.here? = s.player.here? := by
  have hplayer := player_of_judge hjudge
  rw [hplayer]
  rfl

theorem here?_run {s s₁ : Scene σ ω} {st : Statement} {flow : Flow ω}
    (hrun : s.run h st = (flow, s₁)) : s₁.player.here? = s.player.here? := by
  have hplayer := player_of_run hrun
  rw [hplayer, Player.here?, Player.here?]
  simp only [Player.obey_cursor]
  exact Player.statement?_congr (Player.obey_script ..) (Player.obey_label ..) _

end Scene

/-- What a visit leads to. -/
inductive Outcome (σ ω : Type)
  /-- The player goes on from another place. -/
  | on (s : Scene σ ω)
  /-- The player jumps to a label. -/
  | jump (name : String) (s : Scene σ ω)
  /-- The activation is over. -/
  | halt (s : Scene σ ω)

/-- The outcome of a run of labels: a jump if there is a label to jump to. -/
def Outcome.ofRun {σ ω : Type} : Option String × Scene σ ω → Outcome σ ω
  | (none, s) => .halt s
  | (some name, s) => .jump name s

namespace Scene

variable {σ ω : Type} (h : Host σ ω)

/-- What can happen at the place of a player. -/
inductive Visit (s : Scene σ ω) : Outcome σ ω → Prop
  /-- There is no label. -/
  | nowhere (hlabel : s.player.label? = none) : Visit s (.halt s.finish)
  /-- A condition does not hold. -/
  | rejected {st s₁} (hhere : s.player.here? = some st) (hjudge : s.judge h st = (false, s₁)) :
      Visit s (.on s₁.step)
  /-- A choice is offered. -/
  | offered {st s₁ number text target} (hhere : s.player.here? = some st)
      (hjudge : s.judge h st = (true, s₁)) (hchoice : st.choice? = some (number, text, target)) :
      Visit s (.on (s₁.offer number).step)
  /-- A statement that is no choice comes behind choices on offer. -/
  | held {st s₁} (hhere : s.player.here? = some st) (hjudge : s.judge h st = (true, s₁))
      (hchoice : st.choice? = none) (hopen : s₁.player.hasChoices = true) :
      Visit s (.halt (s₁.inPhase .choosing))
  /-- A statement is run and takes no time. -/
  | ran {st s₁ s₂} (hhere : s.player.here? = some st) (hjudge : s.judge h st = (true, s₁))
      (hchoice : st.choice? = none) (hopen : s₁.player.hasChoices = false)
      (hrun : s₁.run h st = (.next, s₂)) : Visit s (.on s₂.step)
  /-- A statement is run that takes time. -/
  | awaited {st s₁ s₂ handle} (hhere : s.player.here? = some st)
      (hjudge : s.judge h st = (true, s₁)) (hchoice : st.choice? = none)
      (hopen : s₁.player.hasChoices = false) (hrun : s₁.run h st = (.wait handle, s₂)) :
      Visit s (.halt (s₂.await handle))
  /-- A jump is run. -/
  | jumped {st s₁ s₂ name} (hhere : s.player.here? = some st)
      (hjudge : s.judge h st = (true, s₁)) (hchoice : st.choice? = none)
      (hopen : s₁.player.hasChoices = false) (hrun : s₁.run h st = (.jump name, s₂)) :
      Visit s (.jump name s₂)
  /-- The label ends behind choices on offer. -/
  | choosing {i} (hend : s.player.AtEnd i) (hopen : s.player.hasChoices = true) :
      Visit s (.halt (s.inPhase .choosing))
  /-- The label ends, and another one follows it. -/
  | through {i} (hend : s.player.AtEnd i) (hopen : s.player.hasChoices = false)
      (hnext : i + 1 < s.player.script.labels.length) :
      Visit s (.on ((s.enterAt (i + 1)).inPhase .running))
  /-- The last label ends. -/
  | ended {i} (hend : s.player.AtEnd i) (hopen : s.player.hasChoices = false)
      (hlast : s.player.script.labels.length ≤ i + 1) : Visit s (.halt s.finish)

/-- Visits that lead on, one after the other. -/
abbrev Visits : Scene σ ω → Scene σ ω → Prop :=
  Relation.ReflTransGen fun s s' => Visit h s (.on s')

/-- Visits that lead on, and a last one with its outcome. -/
def Leg (s : Scene σ ω) (o : Outcome σ ω) : Prop := ∃ s₀, Visits h s s₀ ∧ Visit h s₀ o

/-- Visits and at most `n` jumps, up to the end of an activation. -/
inductive Activation : Nat → Scene σ ω → Scene σ ω → Prop
  | halt {n s s'} (hvisit : Visit h s (.halt s')) : Activation n s s'
  | on {n s s₁ s'} (hvisit : Visit h s (.on s₁)) (hrest : Activation n s₁ s') : Activation n s s'
  /-- A jump to a label that does not exist. -/
  | missed {n s s₁ s' name} (hvisit : Visit h s (.jump name s₁))
      (henter : s₁.enter name = (false, s')) : Activation n s s'
  /-- The last jump. -/
  | spent {s s₁ s₂ name} (hvisit : Visit h s (.jump name s₁))
      (henter : s₁.enter name = (true, s₂)) :
      Activation 1 s ((s₂.inPhase .running).remark (.jumpsSpent name))
  | jump {n s s₁ s₂ s' name} (hvisit : Visit h s (.jump name s₁))
      (henter : s₁.enter name = (true, s₂)) (hrest : Activation (n + 1) (s₂.inPhase .running) s') :
      Activation (n + 2) s s'

variable {h}

theorem Leg.of_visit {s : Scene σ ω} {o : Outcome σ ω} (hvisit : Visit h s o) : Leg h s o :=
  ⟨s, .refl, hvisit⟩

theorem Leg.head {s s₁ : Scene σ ω} {o : Outcome σ ω} (hvisit : Visit h s (.on s₁))
    (hleg : Leg h s₁ o) : Leg h s o := by
  obtain ⟨s₀, hsteps, hlast⟩ := hleg
  exact ⟨s₀, hsteps.head hvisit, hlast⟩

theorem Leg.of_visits {s s₁ : Scene σ ω} {o : Outcome σ ω} (hvisits : Visits h s s₁)
    (hleg : Leg h s₁ o) : Leg h s o := by
  obtain ⟨s₀, hsteps, hlast⟩ := hleg
  exact ⟨s₀, hvisits.trans hsteps, hlast⟩

theorem Activation.of_visits {n : Nat} {s s₁ s' : Scene σ ω} (hvisits : Visits h s s₁)
    (hrest : Activation h n s₁ s') : Activation h n s s' := by
  induction hvisits using Relation.ReflTransGen.head_induction_on with
  | refl => exact hrest
  | head hvisit _ ih => exact .on hvisit ih

/-! ### The loops of the interpreter -/

variable (h) in
/-- What a run of the statements of the label at the place `i` amounts to in visits. -/
def Covers (s : Scene σ ω) (i : Nat) : Halt → Scene σ ω → Prop
  | .stopped, s' => Leg h s (.halt s')
  | .jump name, s' => Leg h s (.jump name s')
  | .through, s' => Visits h s s' ∧ s'.player.AtEnd i ∧ s'.player.hasChoices = false ∧
      s'.player.script = s.player.script

theorem Covers.head {s s₁ s' : Scene σ ω} {i : Nat} {halt : Halt} (hvisit : Visit h s (.on s₁))
    (hscript : s₁.player.script = s.player.script) (hcovers : Covers h s₁ i halt s') :
    Covers h s i halt s' := by
  cases halt with
  | stopped => exact Leg.head hvisit hcovers
  | jump name => exact Leg.head hvisit hcovers
  | through =>
      obtain ⟨hvisits, hend, hopen, hscript'⟩ := hcovers
      exact ⟨hvisits.head hvisit, hend, hopen, hscript'.trans hscript⟩

theorem covers_runStatements {s : Scene σ ω} {i : Nat} {l : Label} {sts : List Statement}
    (hlabel : s.player.label = some i) (hl : s.player.script.labels[i]? = some l)
    (hsts : sts = l.statements.drop s.player.cursor) :
    Covers h s i (s.runStatements h sts).1 (s.runStatements h sts).2 := by
  induction sts generalizing s with
  | nil =>
      have hend : s.player.AtEnd i := ⟨hlabel, l, hl, List.drop_eq_nil_iff.mp hsts.symm⟩
      rw [runStatements]
      split
      · exact .of_visit (.choosing hend ‹_›)
      · exact ⟨.refl, hend, Bool.eq_false_iff.mpr ‹_›, rfl⟩
  | cons st sts ih =>
      have hget : l.statements[s.player.cursor]? = some st := by
        rw [← List.head?_drop, ← hsts, List.head?_cons]
      have hsts' : sts = l.statements.drop (s.player.cursor + 1) := by
        rw [← List.tail_drop, ← hsts, List.tail_cons]
      have hhere : s.player.here? = some st := by
        have hlabel? := (Player.label?_of_label hlabel).trans hl
        rw [Player.here?, Player.statement?_of_label? hlabel?, hget]
      -- a visit that leads on leaves the rest of the same label to be run
      have hon {s₁ : Scene σ ω} (hvisit : Visit h s (.on s₁))
          (hlabel₁ : s₁.player.label = s.player.label)
          (hscript₁ : s₁.player.script = s.player.script)
          (hcursor₁ : s₁.player.cursor = s.player.cursor + 1) :
          Covers h s i (s₁.runStatements h sts).1 (s₁.runStatements h sts).2 :=
        .head hvisit hscript₁
          (ih (hlabel₁.trans hlabel) (hscript₁ ▸ hl) (hcursor₁ ▸ hsts'))
      rw [runStatements]
      rcases hjudge : s.judge h st with ⟨accepted, s₁⟩
      have hplayer := player_of_judge hjudge
      cases accepted with
      | false =>
          dsimp only
          exact hon (.rejected hhere hjudge) (by simp [hplayer]) (by simp [hplayer])
            (by simp [hplayer])
      | true =>
          dsimp only
          split
          · rename_i number text target hinstruction
            obtain ⟨slots, hoffer⟩ := player_offer s₁ number
            exact hon (.offered hhere hjudge (Statement.choice?_eq_some.mpr hinstruction))
              (by simp [hoffer, hplayer]) (by simp [hoffer, hplayer])
              (by simp [hoffer, hplayer])
          · rename_i hinstruction
            have hchoice := Statement.choice?_eq_none.mpr hinstruction
            split
            · exact .of_visit (.held hhere hjudge hchoice ‹_›)
            · have hopen := Bool.eq_false_iff.mpr ‹¬s₁.player.hasChoices = true›
              rcases hrun : s₁.run h st with ⟨_ | handle | name, s₂⟩
              · have hran := player_of_run hrun
                dsimp only
                exact hon (.ran hhere hjudge hchoice hopen hrun)
                  (by simp [hran, hplayer]) (by simp [hran, hplayer])
                  (by simp [hran, hplayer])
              · exact .of_visit (.awaited hhere hjudge hchoice hopen hrun)
              · exact .of_visit (.jumped hhere hjudge hchoice hopen hrun)

/-- A run of the labels from the current one on is a leg. -/
theorem leg_of_runLabels {s : Scene σ ω} {i : Nat} {ls : List Label}
    (hlabel : s.player.label = some i) (hls : ls = s.player.script.labels.drop i) :
    Leg h s (.ofRun (s.runLabels h ls)) := by
  induction ls generalizing s i with
  | nil =>
      have hnone : s.player.label? = none := by
        rw [Player.label?_of_label hlabel, List.getElem?_eq_none_iff]
        exact List.drop_eq_nil_iff.mp hls.symm
      exact .of_visit (.nowhere hnone)
  | cons l ls ih =>
      have hl : s.player.script.labels[i]? = some l := by
        rw [← List.head?_drop, ← hls, List.head?_cons]
      have hls' : ls = s.player.script.labels.drop (i + 1) := by
        rw [← List.tail_drop, ← hls, List.tail_cons]
      have hcovers := covers_runStatements (h := h) hlabel hl rfl
      rw [runLabels]
      rcases hrun : s.runStatements h (l.statements.drop s.player.cursor) with
        ⟨_ | _ | name, s'⟩ <;> rw [hrun] at hcovers
      · exact hcovers
      · obtain ⟨hvisits, hend, hopen, hscript⟩ := hcovers
        dsimp only at hvisits hend hopen hscript ⊢
        rw [← hscript] at hls'
        refine .of_visits hvisits ?_
        by_cases hempty : ls.isEmpty
        · rw [if_pos hempty]
          rw [List.isEmpty_iff.mp hempty, eq_comm, List.drop_eq_nil_iff] at hls'
          exact .of_visit (.ended hend hopen hls')
        · have hnext : i + 1 < s'.player.script.labels.length := by
            rw [hls', List.isEmpty_iff, List.drop_eq_nil_iff] at hempty
            omega
          rw [if_neg hempty, hend.1]
          exact .head (.through hend hopen hnext) (ih rfl hls')
      · exact hcovers

/-- A run up to a stop or a jump is a leg. -/
theorem leg_of_labelsAhead (s : Scene σ ω) :
    Leg h s (.ofRun (s.runLabels h s.labelsAhead)) := by
  cases hlabel : s.player.label with
  | none =>
      have hahead : s.labelsAhead = [] := by simp [labelsAhead, hlabel]
      rw [hahead]
      exact .of_visit (.nowhere (by simp [Player.label?, hlabel]))
  | some i => exact leg_of_runLabels hlabel (by simp [labelsAhead, hlabel])

/-- A run through at most `n + 1` jumps is an activation. -/
theorem activation_runJumps (n : Nat) (s : Scene σ ω) :
    Activation h (n + 1) s (s.runJumps h (n + 1)) := by
  induction n generalizing s with
  | zero =>
      have hleg := leg_of_labelsAhead (h := h) s
      rw [runJumps]
      rcases hrun : s.runLabels h s.labelsAhead with ⟨_ | name, s₁⟩ <;> rw [hrun] at hleg
      · obtain ⟨s₀, hvisits, hvisit⟩ := hleg
        exact .of_visits hvisits (.halt hvisit)
      · obtain ⟨s₀, hvisits, hvisit⟩ := hleg
        refine .of_visits hvisits ?_
        rcases henter : s₁.enter name with ⟨_ | _, s₂⟩
        · simpa only [henter] using .missed hvisit henter
        · simpa only [henter] using .spent hvisit henter
  | succ n ih =>
      have hleg := leg_of_labelsAhead (h := h) s
      rw [runJumps]
      rcases hrun : s.runLabels h s.labelsAhead with ⟨_ | name, s₁⟩ <;> rw [hrun] at hleg
      · obtain ⟨s₀, hvisits, hvisit⟩ := hleg
        exact .of_visits hvisits (.halt hvisit)
      · obtain ⟨s₀, hvisits, hvisit⟩ := hleg
        refine .of_visits hvisits ?_
        rcases henter : s₁.enter name with ⟨_ | _, s₂⟩
        · simpa only [henter] using .missed hvisit henter
        · simpa only [henter] using .jump hvisit henter (ih _)

/-- The interpreter makes an activation. -/
theorem activation_advance (s : Scene σ ω) :
    Activation h (max 1 s.player.config.maxJumps) (s.inPhase .running) (s.advance h) := by
  obtain ⟨n, hn⟩ : ∃ n, max 1 s.player.config.maxJumps = n + 1 :=
    ⟨max 1 s.player.config.maxJumps - 1, by omega⟩
  rw [advance, hn]
  exact activation_runJumps n _

/-! ### What visits keep -/

theorem of_enter_true {s s' : Scene σ ω} {name : String} (henter : s.enter name = (true, s')) :
    ∃ i, s.player.script.findLabel? name = some i ∧ s' = (s.remark (.entered name)).enterAt i := by
  rw [enter] at henter
  split at henter
  · rename_i i hfind
    exact ⟨i, hfind, (Prod.mk.inj henter).2.symm⟩
  · cases (Prod.mk.inj henter).1

theorem of_enter_false {s s' : Scene σ ω} {name : String} (henter : s.enter name = (false, s')) :
    s.player.script.findLabel? name = none ∧
      s' = (s.remark (.missing name s.player.dialog)).finish := by
  rw [enter] at henter
  split at henter
  · cases (Prod.mk.inj henter).1
  · exact ⟨‹_›, (Prod.mk.inj henter).2.symm⟩

/-- What visits and jumps keep is kept along an activation. `P` holds while it lasts and `Q` when
it is over. -/
theorem Activation.induct {P Q : Scene σ ω → Prop}
    (hon : ∀ {s s'}, P s → Visit h s (.on s') → P s')
    (hhalt : ∀ {s s'}, P s → Visit h s (.halt s') → Q s')
    (hmissed : ∀ {s s' name}, P s → Visit h s (.jump name s') →
      s'.player.script.findLabel? name = none →
        Q ((s'.remark (.missing name s'.player.dialog)).finish))
    (hjump : ∀ {s s' name i}, P s → Visit h s (.jump name s') →
      s'.player.script.findLabel? name = some i →
        P (((s'.remark (.entered name)).enterAt i).inPhase .running))
    (hspent : ∀ {s s' name i}, P s → Visit h s (.jump name s') →
      s'.player.script.findLabel? name = some i →
        Q ((((s'.remark (.entered name)).enterAt i).inPhase .running).remark (.jumpsSpent name)))
    {n : Nat} {s s' : Scene σ ω} (hactivation : Activation h n s s') (hs : P s) : Q s' := by
  induction hactivation with
  | halt hvisit => exact hhalt hs hvisit
  | on hvisit _ ih => exact ih (hon hs hvisit)
  | missed hvisit henter =>
      obtain ⟨hfind, rfl⟩ := of_enter_false henter
      exact hmissed hs hvisit hfind
  | spent hvisit henter =>
      obtain ⟨i, hfind, rfl⟩ := of_enter_true henter
      exact hspent hs hvisit hfind
  | jump hvisit henter _ ih =>
      obtain ⟨i, hfind, rfl⟩ := of_enter_true henter
      exact ih (hjump hs hvisit hfind)

end Scene

end DialogScript
