import DialogScript.Proofs.Player.Visit

/-!
# Runs of a player

The owner of a player starts dialogs, updates the player, picks choices, goes to labels, ends the
dialog and replaces the condition log, in any order. A run is a list of such operations on a fresh
player; what all operations keep holds after every run. Every operation that runs statements does so
through one activation, entered at a label or at the cursor.

## Main definitions

* `Operation`, `Operation.isStart`, `Scene.apply`, `Scene.answer`: the operations, and a scene after
  one and its answer
* `Host.instant`: a host that keeps nobody waiting
* `Player.dismissed`: a player that has forgotten its session
* `Scene.fresh`, `Scene.after`: a player before its first operation, and a scene after many

## Main results

* `Scene.after_induct`: what every operation keeps holds after every run
* `Scene.goTo_of_findLabel?`, `Scene.goTo_of_missing`: going to a label
* `Scene.startSource_of_error`, `Scene.startSource_of_ok`: starting a dialog
* `Scene.choose_cases`: what picking a choice can do
-/

namespace DialogScript

/-- What the owner of a player can do with it. -/
inductive Operation
  | start (actor dialog label : String)
  | startSource (actor dialog label source : String)
  | update
  | choose (choice : Nat)
  | goTo (label : String)
  | finish
  | setLog (log : Log)
  deriving DecidableEq

/-- The operation starts a dialog. -/
def Operation.isStart : Operation → Bool
  | start .. | startSource .. => true
  | _ => false

/-- A host for which all code holds and every wait is over at once. -/
def Host.instant : Host Unit Unit where
  perform _ state := state
  begin _ state := ((), state)
  poll _ state := (true, state)
  holds _ state := (true, state)

/-- The player without its session: but for the log without the entries of `temponce` and the names
of the actor and the dialog, it is a new one of the same loader and configuration. -/
def Player.dismissed {ω : Type} (p : Player ω) : Player ω where
  loader := p.loader
  config := p.config
  log := p.log.purgeTempOnce
  script := {}
  actor := p.actor
  dialog := p.dialog
  label := none
  cursor := 0
  slots := .empty
  phase := .idle
  wait := none
  destination := ""
  parrot := p.config.parrot
  limit := p.config.limit
  override := ""

namespace Scene

variable {σ ω : Type} (h : Host σ ω)

/-- The scene after an operation. -/
def apply (s : Scene σ ω) : Operation → Scene σ ω
  | .start actor dialog label => (s.start h actor dialog label).2
  | .startSource actor dialog label source => (s.startSource h actor dialog label source).2
  | .update => s.update h
  | .choose choice => s.choose h choice
  | .goTo label => s.goTo h label
  | .finish => s.finish
  | .setLog log => { s with player := s.player.withLog log }

/-- The error that an operation gives, if it gives one. Only starting a dialog does. -/
def answer (s : Scene σ ω) : Operation → Option Error
  | .start actor dialog label => (s.start h actor dialog label).1
  | .startSource actor dialog label source => (s.startSource h actor dialog label source).1
  | .update | .choose _ | .goTo _ | .finish | .setLog _ => none

/-- A player before its first operation. -/
def fresh (loader : Loader) (config : Config) (log : Log) (host : σ) : Scene σ ω where
  player := ((Player.new loader).withConfig config).withLog log
  host := host

/-- The scene after operations, one after the other. -/
def after (s : Scene σ ω) (ops : List Operation) : Scene σ ω := ops.foldl (apply h) s

@[simp] theorem after_nil (s : Scene σ ω) : s.after h [] = s := rfl

@[simp] theorem after_cons (s : Scene σ ω) (op : Operation) (ops : List Operation) :
    s.after h (op :: ops) = (s.apply h op).after h ops := rfl

variable {h}

/-- What every operation of a run keeps holds after the run. -/
theorem after_induct {P : Scene σ ω → Prop} {ops : List Operation} {s : Scene σ ω}
    (happly : ∀ {s op}, op ∈ ops → P s → P (s.apply h op)) (hs : P s) : P (s.after h ops) := by
  induction ops generalizing s with
  | nil => exact hs
  | cons op ops ih =>
      refine ih (fun hop => happly (List.mem_cons_of_mem op hop)) (happly List.mem_cons_self hs)

/-! ### Going to a label -/

theorem goTo_of_findLabel? {s : Scene σ ω} {name : String} {i : Nat}
    (hfind : s.player.script.findLabel? name = some i) :
    s.goTo h name = ((s.remark (.entered name)).enterAt i).advance h := by
  simp [goTo, enter, hfind]

theorem goTo_of_missing {s : Scene σ ω} {name : String}
    (hfind : s.player.script.findLabel? name = none) :
    s.goTo h name = (s.remark (.missing name s.player.dialog)).finish := by
  simp [goTo, enter, hfind]

/-! ### Starting a dialog -/

/-- The scene when the source of a dialog has been read. -/
def reading (s : Scene σ ω) (source : String) : Scene σ ω :=
  (Script.notices source).foldl (fun s n => s.remark (.read n)) s.reset

/-- The scene when a script is about to be played from a label. -/
def opened (s : Scene σ ω) (actor dialog label source : String) (script : Script) : Scene σ ω :=
  let s := (s.reading source).remark (.started actor dialog label)
  { s with player := { s.player with script, actor, dialog } }

theorem player_reset (s : Scene σ ω) : s.reset.player = s.player.dismissed := by
  rw [reset, player_finish]
  rfl

/-- Reading a source remarks on what is left out. What remarks keep holds when it has been read. -/
theorem reading_induct {P : Scene σ ω → Prop} {s : Scene σ ω}
    (hremark : ∀ s r, P s → P (s.remark r)) (hs : P s.reset) (source : String) :
    P (s.reading source) := by
  rw [reading]
  generalize s.reset = s' at hs
  induction Script.notices source generalizing s' with
  | nil => exact hs
  | cons n ns ih => exact ih _ (hremark s' (.read n) hs)

@[simp] theorem player_reading (s : Scene σ ω) (source : String) :
    (s.reading source).player = s.player.dismissed :=
  reading_induct (P := fun s' => s'.player = s.player.dismissed) (fun _ _ hs => hs)
    (player_reset s) source

@[simp] theorem player_opened (s : Scene σ ω) (actor dialog label source : String)
    (script : Script) :
    (s.opened actor dialog label source script).player =
      { s.player.dismissed with script, actor, dialog } := by
  rw [opened]
  dsimp only
  rw [player_remark, player_reading]

theorem startSource_of_error {s : Scene σ ω} {actor dialog label source : String} {e : Error}
    (hread : Script.read source = .error e) :
    (s.startSource h actor dialog label source).2 = s.reading source := by
  simp [startSource, hread, reading]

theorem startSource_of_ok {s : Scene σ ω} {actor dialog label source : String} {script : Script}
    (hread : Script.read source = .ok script) :
    (s.startSource h actor dialog label source).2 =
      (s.opened actor dialog label source script).goTo h label := by
  simp [startSource, hread, reading, opened]

/-! ### Picking a choice -/

/-- The scene when a choice has been picked whose text is said before the jump. -/
def echo (h : Host σ ω) (s : Scene σ ω) (text target : String) : Scene σ ω :=
  let s' := { s with player := { s.player with phase := .echoing, destination := target } }
  let (handle, s') := s'.begin h (.say s.player.actor text)
  { s' with player := { s'.player with wait := some handle } }

theorem exists_slot_of_mem_offered {p : Player ω} {i : Nat} (hmem : i ∈ p.offered) :
    ∃ k : Fin maxChoices, p.slots.get k = some i := by
  obtain ⟨slot, hslot, rfl⟩ := List.mem_filterMap.mp hmem
  obtain ⟨k, hk, hget⟩ := Vector.mem_iff_getElem.mp (Vector.mem_toList_iff.mp hslot)
  exact ⟨⟨k, hk⟩, hget⟩

/-- Picking a choice only remarks on it, or uses the statement in a place and either says its text
or goes to its label. -/
theorem choose_cases (h : Host σ ω) (s : Scene σ ω) (choice : Nat) :
    (s.choose h choice = s ∨ ∃ r, s.choose h choice = s.remark r) ∨
      s.player.phase = .choosing ∧ ∃ k : Fin maxChoices, ∃ i st number text target,
        s.player.slots.get k = some i ∧ s.player.statement? i = some st ∧
        st.choice? = some (number, text, target) ∧
        s.choose h choice =
          if s.player.parrot then (s.use st).echo h text target else (s.use st).goTo h target := by
  by_cases hphase : s.player.phase = .choosing
  · by_cases hzero : choice = 0
    · exact .inl (.inr ⟨.noSuchChoice choice, by simp [choose, hphase, hzero]⟩)
    · cases hpicked : s.player.offered[choice - 1]?.bind s.player.statement? with
      | none => exact .inl (.inr ⟨.noSuchChoice choice, by simp [choose, hphase, hzero, hpicked]⟩)
      | some st =>
          obtain ⟨i, hi, hst⟩ := Option.bind_eq_some_iff.mp hpicked
          obtain ⟨k, hk⟩ := exists_slot_of_mem_offered (List.mem_of_getElem? hi)
          rcases hchoice : st.choice? with _ | ⟨number, text, target⟩
          · exact .inl (.inl (by simp [choose, hphase, hzero, hpicked, hchoice]))
          · refine .inr ⟨hphase, k, i, st, number, text, target, hk, hst, hchoice, ?_⟩
            rw [choose]
            simp only [hphase, ne_eq, not_true_eq_false, if_false, hzero, hpicked, hchoice]
            split <;> rfl
  · exact .inl (.inr ⟨.pickIgnored choice s.player.phase, by simp [choose, hphase]⟩)

end Scene

end DialogScript
