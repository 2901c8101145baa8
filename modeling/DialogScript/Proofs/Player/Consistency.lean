import DialogScript.Proofs.Player.Operation

/-!
# Consistent players

The fields of a player hang together: its phase tells whether it has a label, whether choices are on
offer and what it waits for, and every place for choices holds a choice of its number that stands
before the cursor. The phase in which a label has just been entered is passed through inside an
operation and never seen between two of them.

Going to a label makes any player consistent, so does starting a dialog; the other operations keep a
player consistent. While statements are run, a part of this is kept by every visit.

## Main definitions

* `Player.Placed`: what holds of the place and the choices while statements are run
* `Player.Consistent`: what holds between operations

## Main results

* `Scene.placed_of_visit`, `Scene.consistent_of_halt`: what visits keep, and what they end in
* `Scene.consistent_apply`, `Scene.consistent_after`: operations and runs keep a player consistent
* `Scene.consistent_after_fresh`: players are consistent between operations
-/

namespace DialogScript

namespace Player

variable {ω : Type}

/-- Every place that is taken holds a choice of its number that stands before the cursor. -/
def HoldsChoices (p : Player ω) : Prop :=
  ∀ (k : Fin maxChoices) (i : Nat), p.slots.get k = some i → i < p.cursor ∧
    ∃ st number text target, p.statement? i = some st ∧
      st.choice? = some (number, text, target) ∧ number.toInt = (k : Int) + 1

/-- The player is at a place of its script, with choices before the cursor on offer and no more of
them than are allowed. -/
structure Placed (p : Player ω) : Prop where
  label : ∃ i l, p.label = some i ∧ p.script.labels[i]? = some l ∧ p.cursor ≤ l.statements.length
  slots : p.HoldsChoices
  limit : p.offered.length ≤ p.limit

/-- The fields of a player between two operations hang together. -/
structure Consistent (p : Player ω) : Prop where
  not_entered : p.phase ≠ .entered
  idle_iff : p.phase = .idle ↔ p.label = none
  idle : p.phase = .idle →
    p.cursor = 0 ∧ p.wait = none ∧ p.destination = "" ∧ p.slots = Slots.empty
  label : p.phase ≠ .idle →
    ∃ i l, p.label = some i ∧ p.script.labels[i]? = some l ∧ p.cursor ≤ l.statements.length
  slots : p.HoldsChoices
  limit : p.offered.length ≤ p.limit
  open_of_choosing : p.phase = .choosing ∨ p.phase = .echoing → p.hasChoices = true
  closed_of_running : p.phase = .running ∨ p.phase = .waiting → p.hasChoices = false
  running : p.phase = .running → p.cursor = 0
  waiting : p.phase = .waiting → (∃ handle, p.wait = some handle) ∧
    ∃ st, p.statement? p.cursor = some st ∧ st.instruction.takesTime = true
  echoing : p.phase = .echoing → (∃ handle, p.wait = some handle) ∧
    ∃ (k : Fin maxChoices) (i : Nat) (st : Statement) (number : Int32) (text : String),
      p.slots.get k = some i ∧ p.statement? i = some st ∧
      st.choice? = some (number, text, p.destination)

theorem holdsChoices_of_empty {p : Player ω} (h : p.slots = .empty) : p.HoldsChoices := by
  intro k i hk
  rw [h, get_empty] at hk
  cases hk

theorem offered_length_of_empty {p : Player ω} (h : p.slots = .empty) : p.offered.length = 0 := by
  rw [offered, h]
  rfl

/-- What is on offer stays on offer while the player moves forward in its label. -/
theorem HoldsChoices.of_forward {p q : Player ω} (hp : p.HoldsChoices) (hslots : q.slots = p.slots)
    (hscript : q.script = p.script) (hlabel : q.label = p.label) (hcursor : p.cursor ≤ q.cursor) :
    q.HoldsChoices := by
  intro k i hk
  rw [hslots] at hk
  obtain ⟨hlt, st, number, text, target, hst, hchoice, hnumber⟩ := hp k i hk
  refine ⟨Nat.lt_of_lt_of_le hlt hcursor, st, number, text, target, ?_, hchoice, hnumber⟩
  rw [statement?_congr hscript hlabel, hst]

/-- A player without a dialog and without choices is consistent. -/
theorem consistent_of_idle {p : Player ω} (hphase : p.phase = .idle) (hlabel : p.label = none)
    (hcursor : p.cursor = 0) (hwait : p.wait = none) (hdestination : p.destination = "")
    (hslots : p.slots = .empty) : p.Consistent where
  not_entered := by simp [hphase]
  idle_iff := by simp [hphase, hlabel]
  idle _ := ⟨hcursor, hwait, hdestination, hslots⟩
  label h := absurd hphase h
  slots := holdsChoices_of_empty hslots
  limit := by rw [offered_length_of_empty hslots]; exact Nat.zero_le _
  open_of_choosing := by simp [hphase]
  closed_of_running := by simp [hphase]
  running := by simp [hphase]
  waiting := by simp [hphase]
  echoing := by simp [hphase]

/-- A statement at the cursor stands inside the label. -/
theorem Placed.cursor_lt {p : Player ω} (hp : p.Placed) {st : Statement}
    (hhere : p.here? = some st) :
    ∃ i l, p.label = some i ∧ p.script.labels[i]? = some l ∧ p.cursor < l.statements.length := by
  obtain ⟨i, l, hlabel, hl, -⟩ := hp.label
  rw [here?, statement?_of_label? ((label?_of_label hlabel).trans hl)] at hhere
  obtain ⟨hlt, -⟩ := List.getElem?_eq_some_iff.mp hhere
  exact ⟨i, l, hlabel, hl, hlt⟩

/-- Filling a free place adds one choice. -/
theorem offered_length_of_set {p q : Player ω} {k : Fin maxChoices} {i : Nat}
    (hfree : p.slots.get k = none) (hslots : q.slots = p.slots.set k (some i) k.isLt) :
    q.offered.length = p.offered.length + 1 := by
  have hfree : p.slots[k.val] = none := hfree
  rw [offered_length, offered_length, hslots, Vector.countP_set k.isLt, hfree]
  rfl

end Player

namespace Scene

open Player

variable {σ ω : Type} {h : Host σ ω}

/-! ### Visits -/

/-- Judging a statement leaves a player placed. -/
theorem placed_judge {s s₁ : Scene σ ω} {st : Statement} {accepted : Bool} (hs : s.player.Placed)
    (hjudge : s.judge h st = (accepted, s₁)) : s₁.player.Placed := by
  have hplayer := player_of_judge hjudge
  rw [hplayer]
  exact ⟨hs.label, hs.slots.of_forward rfl rfl rfl (Nat.le_refl _), hs.limit⟩

/-- Passing over the statement at the cursor leaves a player placed. -/
theorem placed_step {s : Scene σ ω} {st : Statement} (hs : s.player.Placed)
    (hhere : s.player.here? = some st) : s.step.player.Placed := by
  obtain ⟨i, l, hlabel, hl, hlt⟩ := hs.cursor_lt hhere
  exact ⟨⟨i, l, hlabel, hl, hlt⟩, hs.slots.of_forward rfl rfl rfl (Nat.le_succ _), hs.limit⟩

/-- A choice that is offered stands in the place of its number. -/
theorem holdsChoices_offer {s : Scene σ ω} {st : Statement} {number : Int32} {text target : String}
    (hs : s.player.HoldsChoices) (hhere : s.player.here? = some st)
    (hchoice : st.choice? = some (number, text, target)) :
    (s.offer number).step.player.HoldsChoices := by
  rcases offer_cases s number with ⟨⟨r, hoffer⟩, -⟩ | ⟨k, hnumber, -, -, hoffer⟩
  · rw [hoffer]
    exact hs.of_forward rfl rfl rfl (Nat.le_succ _)
  · rw [hoffer]
    intro k' i' hk'
    by_cases hkk : k' = k
    · subst hkk
      obtain rfl := Option.some.inj ((get_set_self _ k' _).symm.trans hk')
      exact ⟨Nat.lt_succ_self _, st, number, text, target, hhere, hchoice, hnumber⟩
    · obtain ⟨hlt, hrest⟩ := hs k' i' ((get_set_of_ne _ hkk _).symm.trans hk')
      exact ⟨Nat.lt_succ_of_lt hlt, hrest⟩

/-- Offering the choice at the cursor and passing over it leaves a player placed. -/
theorem placed_offer {s : Scene σ ω} {st : Statement} {number : Int32} {text target : String}
    (hs : s.player.Placed) (hhere : s.player.here? = some st)
    (hchoice : st.choice? = some (number, text, target)) : (s.offer number).step.player.Placed := by
  rcases offer_cases s number with ⟨⟨r, hoffer⟩, -⟩ | ⟨k, -, hfree, hlimit, hoffer⟩
  · rw [hoffer]
    exact placed_step (s := s.remark r) hs hhere
  · obtain ⟨i, l, hlabel, hl, hlt⟩ := hs.cursor_lt hhere
    have hslots := holdsChoices_offer hs.slots hhere hchoice
    rw [hoffer] at hslots ⊢
    refine ⟨⟨i, l, hlabel, hl, hlt⟩, hslots, ?_⟩
    rw [offered_length_of_set hfree rfl]
    exact hlimit

/-- Running a statement without choices on offer leaves a player placed. -/
theorem placed_run {s s₁ : Scene σ ω} {st : Statement} {flow : Flow ω} (hs : s.player.Placed)
    (hopen : s.player.hasChoices = false) (hrun : s.run h st = (flow, s₁)) :
    s₁.player.Placed := by
  have hplayer := player_of_run hrun
  have hslots : s₁.player.slots = .empty := by
    rw [hplayer]
    exact (obey_slots ..).trans (eq_empty_of_hasChoices hopen)
  refine ⟨?_, holdsChoices_of_empty hslots, ?_⟩
  · rw [hplayer]
    simpa using hs.label
  · rw [offered_length_of_empty hslots]
    exact Nat.zero_le _

/-- A player that has come to a label of its script is placed there. -/
theorem placed_enterAt {s : Scene σ ω} {i : Nat} (hi : i < s.player.script.labels.length)
    (phase : Phase) : ((s.enterAt i).inPhase phase).player.Placed :=
  ⟨⟨i, _, rfl, List.getElem?_eq_getElem hi, Nat.zero_le _⟩, holdsChoices_of_empty rfl,
    Nat.zero_le _⟩

/-- A visit that leads on leaves a player placed. -/
theorem placed_of_visit {s s' : Scene σ ω} (hs : s.player.Placed) (hvisit : Visit h s (.on s')) :
    s'.player.Placed := by
  cases hvisit with
  | rejected hhere hjudge =>
      exact placed_step (placed_judge hs hjudge) ((here?_judge hjudge).trans hhere)
  | offered hhere hjudge hchoice =>
      exact placed_offer (placed_judge hs hjudge) ((here?_judge hjudge).trans hhere) hchoice
  | ran hhere hjudge hchoice hopen hrun =>
      exact placed_step (placed_run (placed_judge hs hjudge) hopen hrun)
        (((here?_run hrun).trans (here?_judge hjudge)).trans hhere)
  | through hend hopen hnext => exact placed_enterAt hnext .running

/-! ### The end of an activation -/

theorem consistent_finish (s : Scene σ ω) : s.finish.player.Consistent := by
  rw [player_finish]
  exact consistent_of_idle rfl rfl rfl rfl rfl rfl

/-- A placed player that offers choices is consistent. -/
theorem consistent_choosing {s : Scene σ ω} (hs : s.player.Placed)
    (hopen : s.player.hasChoices = true) : (s.inPhase .choosing).player.Consistent := by
  obtain ⟨i, l, hlabel, hl, hle⟩ := hs.label
  rw [player_inPhase]
  exact {
    not_entered := by simp
    idle_iff := by simp [hlabel]
    idle := by simp
    label := fun _ => ⟨i, l, hlabel, hl, hle⟩
    slots := hs.slots.of_forward rfl rfl rfl (Nat.le_refl _)
    limit := hs.limit
    open_of_choosing := fun _ => hopen
    closed_of_running := by simp
    running := by simp
    waiting := by simp
    echoing := by simp }

/-- A placed player that waits for the statement at its cursor is consistent. -/
theorem consistent_await {s : Scene σ ω} {st : Statement} (hs : s.player.Placed)
    (hhere : s.player.here? = some st) (htime : st.instruction.takesTime = true)
    (hopen : s.player.hasChoices = false) (handle : ω) :
    (s.await handle).player.Consistent := by
  obtain ⟨i, l, hlabel, hl, hle⟩ := hs.label
  rw [player_await]
  exact {
    not_entered := by simp
    idle_iff := by simp [hlabel]
    idle := by simp
    label := fun _ => ⟨i, l, hlabel, hl, hle⟩
    slots := hs.slots.of_forward rfl rfl rfl (Nat.le_refl _)
    limit := hs.limit
    open_of_choosing := by simp
    closed_of_running := fun _ => hopen
    running := by simp
    waiting := fun _ => ⟨⟨handle, rfl⟩, st, hhere, htime⟩
    echoing := by simp }

/-- A player that will run a label of its script from its beginning is consistent. -/
theorem consistent_enterAt {s : Scene σ ω} {i : Nat} (hi : i < s.player.script.labels.length) :
    ((s.enterAt i).inPhase .running).player.Consistent := by
  have hplaced := placed_enterAt hi .running
  rw [player_inPhase, player_enterAt] at hplaced ⊢
  exact {
    not_entered := by simp
    idle_iff := by simp
    idle := by simp
    label := fun _ => hplaced.label
    slots := hplaced.slots
    limit := hplaced.limit
    open_of_choosing := by simp
    closed_of_running := fun _ => hasChoices_of_empty rfl
    running := fun _ => rfl
    waiting := by simp
    echoing := by simp }

/-- A visit that ends an activation of a placed player leaves a consistent player. -/
theorem consistent_of_halt {s s' : Scene σ ω} (hs : s.player.Placed)
    (hvisit : Visit h s (.halt s')) : s'.player.Consistent := by
  cases hvisit with
  | nowhere => exact consistent_finish s
  | held hhere hjudge hchoice hopen => exact consistent_choosing (placed_judge hs hjudge) hopen
  | @awaited st s₁ s₂ handle hhere hjudge hchoice hopen hrun =>
      have hran := placed_run (placed_judge hs hjudge) hopen hrun
      have hhere₂ := ((here?_run hrun).trans (here?_judge hjudge)).trans hhere
      have htime : st.instruction.takesTime = true := by
        have hflow := flow_follow h (s₁.remark (.ran s₁.player.dialog st.instruction.name
          s₁.player.currentLabel?)) st.instruction
        rw [← flow_run, hrun] at hflow
        exact hflow
      have hopen₂ : s₂.player.hasChoices = false := by
        have hplayer := player_of_run hrun
        rw [← hopen, hplayer]
        exact hasChoices_congr (obey_slots ..)
      exact consistent_await hran hhere₂ htime hopen₂ handle
  | choosing hend hopen => exact consistent_choosing hs hopen
  | ended => exact consistent_finish s

/-- The label of a jump is a place of the script. -/
theorem lt_of_findLabel? {script : Script} {name : String} {i : Nat}
    (hfind : script.findLabel? name = some i) : i < script.labels.length := by
  obtain ⟨l, hl, -⟩ := (Script.isLast_of_findLabel? hfind).1
  exact (List.getElem?_eq_some_iff.mp hl).1

/-- Running from a place leaves a consistent player. -/
theorem consistent_advance {s : Scene σ ω} (hs : s.player.Placed) :
    (s.advance h).player.Consistent := by
  refine Activation.induct (P := fun s => s.player.Placed) (Q := fun s => s.player.Consistent)
    placed_of_visit consistent_of_halt ?_ ?_ ?_ (activation_advance s) ?_
  · exact fun _ _ _ => consistent_finish _
  · exact fun _ _ hfind => placed_enterAt (lt_of_findLabel? hfind) .running
  · exact fun _ _ hfind => consistent_enterAt (lt_of_findLabel? hfind)
  · exact ⟨hs.label, hs.slots.of_forward rfl rfl rfl (Nat.le_refl _), hs.limit⟩

/-! ### Operations -/

/-- Going to a label makes any player consistent. -/
theorem consistent_goTo (s : Scene σ ω) (name : String) : (s.goTo h name).player.Consistent := by
  cases hfind : s.player.script.findLabel? name with
  | none =>
      rw [goTo_of_missing hfind]
      exact consistent_finish _
  | some i =>
      rw [goTo_of_findLabel? hfind]
      exact consistent_advance
        (placed_enterAt (s := s.remark (.entered name)) (lt_of_findLabel? hfind) .entered)

theorem consistent_reset (s : Scene σ ω) : s.reset.player.Consistent := by
  rw [player_reset]
  exact consistent_of_idle rfl rfl rfl rfl rfl rfl

/-- Starting a dialog makes any player consistent, whether or not its source is a dialog. -/
theorem consistent_startSource (s : Scene σ ω) (actor dialog label source : String) :
    (s.startSource h actor dialog label source).2.player.Consistent := by
  cases hread : Script.read source with
  | error e =>
      rw [startSource_of_error hread, player_reading, ← player_reset]
      exact consistent_reset s
  | ok script =>
      rw [startSource_of_ok hread]
      exact consistent_goTo _ _

theorem consistent_start (s : Scene σ ω) (actor dialog label : String) :
    (s.start h actor dialog label).2.player.Consistent := by
  rw [start]
  split
  · exact consistent_reset s
  · exact consistent_startSource ..

/-- Picking a choice keeps a player consistent. -/
theorem consistent_choose {s : Scene σ ω} (hs : s.player.Consistent) (choice : Nat) :
    (s.choose h choice).player.Consistent := by
  rcases choose_cases h s choice with (hsame | ⟨r, hsame⟩) |
    ⟨hphase, k, i, st, number, text, target, hk, hst, hchoice, hpicked⟩
  · rw [hsame]
    exact hs
  · rw [hsame]
    exact hs
  · rw [hpicked]
    split
    · have hnotIdle : s.player.phase ≠ .idle := by simp [hphase]
      obtain ⟨j, l, hlabel, hl, hle⟩ := hs.label hnotIdle
      exact {
        not_entered := by simp [echo]
        idle_iff := by simp [echo, player_use, hlabel]
        idle := by simp [echo]
        label := fun _ => ⟨j, l, hlabel, hl, hle⟩
        slots := hs.slots.of_forward rfl rfl rfl (Nat.le_refl _)
        limit := hs.limit
        open_of_choosing := fun _ => hs.open_of_choosing (.inl hphase)
        closed_of_running := by simp [echo]
        running := by simp [echo]
        waiting := by simp [echo]
        echoing := fun _ => ⟨⟨_, rfl⟩, k, i, st, number, text, hk, hst, hchoice⟩ }
    · exact consistent_goTo _ _

/-- Updating keeps a player consistent. -/
theorem consistent_update {s : Scene σ ω} (hs : s.player.Consistent) :
    (s.update h).player.Consistent := by
  rw [update]
  split
  · exact hs
  · exact hs
  · exact absurd ‹_› hs.not_entered
  · rename_i hphase
    exact consistent_advance ⟨hs.label (by simp [hphase]), hs.slots, hs.limit⟩
  · rename_i hphase
    rcases hpoll : s.pollWait h with ⟨_ | _, s'⟩ <;> have hplayer := player_pollWait hpoll <;>
      dsimp only at hplayer ⊢
    · rw [hplayer]
      exact hs
    · obtain ⟨-, st, hhere, -⟩ := hs.waiting hphase
      have hplaced : s'.player.Placed := by
        rw [hplayer]
        exact ⟨hs.label (by simp [hphase]), hs.slots.of_forward rfl rfl rfl (Nat.le_refl _),
          hs.limit⟩
      have hhere' : s'.player.here? = some st := by
        rw [hplayer]
        exact hhere
      exact consistent_advance (placed_step hplaced hhere')
  · rcases hpoll : s.pollWait h with ⟨_ | _, s'⟩ <;> have hplayer := player_pollWait hpoll <;>
      dsimp only at hplayer ⊢
    · rw [hplayer]
      exact hs
    · exact consistent_goTo _ _

/-- Every operation keeps a player consistent. -/
theorem consistent_apply {s : Scene σ ω} (hs : s.player.Consistent) (op : Operation) :
    (s.apply h op).player.Consistent := by
  cases op with
  | start actor dialog label => exact consistent_start s actor dialog label
  | startSource actor dialog label source =>
      exact consistent_startSource s actor dialog label source
  | update => exact consistent_update hs
  | choose choice => exact consistent_choose hs choice
  | goTo label => exact consistent_goTo s label
  | finish => exact consistent_finish s
  | setLog log =>
      exact { hs with slots := hs.slots.of_forward rfl rfl rfl (Nat.le_refl _) }

theorem consistent_fresh (loader : Loader) (config : Config) (log : Log) (host : σ) :
    (fresh loader config log host : Scene σ ω).player.Consistent :=
  consistent_of_idle rfl rfl rfl rfl rfl rfl

/-- A run keeps a player consistent. -/
theorem consistent_after {s : Scene σ ω} (hs : s.player.Consistent) (ops : List Operation) :
    (s.after h ops).player.Consistent :=
  after_induct (P := fun s => s.player.Consistent) (fun _ hs => consistent_apply hs _) hs

/-- After any operations on a fresh player, whatever its host answers, the fields of the player hang
together. -/
theorem consistent_after_fresh (h : Host σ ω) (loader : Loader) (config : Config) (log : Log)
    (host : σ) (ops : List Operation) :
    ((fresh loader config log host : Scene σ ω).after h ops).player.Consistent :=
  consistent_after (consistent_fresh loader config log host) ops

end Scene

end DialogScript
