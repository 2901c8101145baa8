import DialogScript.Player

/-!
# Running statements

A player runs the statements of a label one after the other. It stops where it has to wait or has
choices to offer; from the end of a label it goes on to the next one, and after the last label the
dialog ends. A jump leads to the last label of a name. The number of jumps in one run is bounded;
between two jumps no statement is come to twice.

## Main definitions

* `Scene.judge`: asks the conditions of a statement
* `Scene.run`: runs an instruction
* `Scene.offer`: puts a choice in its place
* `Scene.runStatements`, `Scene.runLabels`, `Scene.runJumps`: the three nested loops
* `Scene.advance`: runs the player from its place
-/

namespace DialogScript

/-- The scope is used up when a statement is shown, not when it is run or picked. -/
def Scope.onShow : Scope → Bool
  | showOnce | tempOnce => true
  | once | onceEver => false

/-- The entries that the conditions of a statement make when they fire, for some scopes. -/
def Statement.entries (s : Statement) (scopes : Scope → Bool) (actor dialog : String) :
    List Entry :=
  s.conditions.filterMap fun c =>
    match c.gate with
    | .code _ => none
    | .scope scope => if scopes scope then some ⟨scope, ⟨actor, dialog, c.line⟩⟩ else none

/-- What follows when an instruction has been run. -/
inductive Flow (ω : Type)
  /-- The next statement. -/
  | next
  /-- A wait. -/
  | wait (handle : ω)
  /-- A jump to a label. -/
  | jump (label : String)

/-- Why a run of statements is over. -/
inductive Halt
  /-- The player waits or offers choices. -/
  | stopped
  /-- The end of the label, with no choices to offer. -/
  | through
  /-- A jump to a label. -/
  | jump (label : String)
  deriving DecidableEq, Repr

namespace Scene

variable {σ ω : Type}

/-! ### Changes of the player -/

/-- The scene with the player in another phase. -/
def inPhase (s : Scene σ ω) (phase : Phase) : Scene σ ω :=
  { s with player := { s.player with phase } }

/-- The scene with the player waiting for what a handle stands for. -/
def await (s : Scene σ ω) (handle : ω) : Scene σ ω :=
  { s with player := { s.player with wait := some handle, phase := .waiting } }

/-- The scene with the player at the next statement. -/
def step (s : Scene σ ω) : Scene σ ω :=
  { s with player := { s.player with cursor := s.player.cursor + 1 } }

/-- The entries of a statement's conditions, for some scopes, go into the log. -/
def log (s : Scene σ ω) (scopes : Scope → Bool) (st : Statement) : Scene σ ω :=
  let p := s.player
  { s with player := { p with log := p.log.extend (st.entries scopes p.actor p.dialog) } }

/-- The dialog ends. -/
def finish (s : Scene σ ω) : Scene σ ω :=
  let s := if s.player.phase = .idle then s else s.remark (.ended s.player.dialog)
  { s with player := { s.player with
      phase := .idle, label := none, cursor := 0, wait := none, destination := "",
      slots := .empty } }

/-- The player comes to the label at a place. -/
def enterAt (s : Scene σ ω) (i : Nat) : Scene σ ω :=
  { s with player := { s.player with
      phase := .entered, label := some i, cursor := 0, slots := .empty } }

/-- The player comes to the label of a name, or the dialog ends if there is none. The answer tells
which. -/
def enter (s : Scene σ ω) (name : String) : Bool × Scene σ ω :=
  match s.player.script.findLabel? name with
  | some i => (true, (s.remark (.entered name)).enterAt i)
  | none => (false, (s.remark (.missing name s.player.dialog)).finish)

/-- Puts the statement at the cursor in the place of its number, unless there is no such place, it
is taken, or enough choices are on offer. -/
def offer (s : Scene σ ω) (number : Int32) : Scene σ ω :=
  let p := s.player
  let slot := (number.toInt - 1).toNat
  if h : 1 ≤ number.toInt ∧ slot < maxChoices then
    if p.slots[slot].isSome then s.remark (.taken number)
    else if p.limit ≤ p.offered.length then s.remark (.overLimit number p.limit)
    else { s with player := { p with slots := p.slots.set slot (some p.cursor) } }
  else s.remark (.outOfRange p.dialog number)

/-! ### Calls of the host -/

variable (h : Host σ ω)

/-- The host does something at once. -/
def perform (s : Scene σ ω) (e : Effect) : Scene σ ω :=
  { s with host := h.perform e s.host }.note (.call (.effect e))

/-- The host begins something that takes time. -/
def begin (s : Scene σ ω) (d : Delay) : ω × Scene σ ω :=
  let (handle, host) := h.begin d s.host
  (handle, { s with host }.note (.call (.delay d handle)))

/-- The host tells whether what a handle stands for is over. -/
def poll (s : Scene σ ω) (handle : ω) : Bool × Scene σ ω :=
  let (ready, host) := h.poll handle s.host
  (ready, { s with host }.note (.call (.poll handle ready)))

/-- The host answers a condition. -/
def ask (s : Scene σ ω) (c : Condition) : Bool × Scene σ ω :=
  match c.gate with
  | .code text =>
    let (holds, host) := h.holds text s.host
    (holds, { s with host }.note (.call (.code text holds)))
  | .scope scope =>
    let site := s.player.site c.line
    let (admitted, host) := h.admits scope s.player.log site s.host
    (admitted, { s with host }.note (.call (.scope scope site admitted)))

/-- The host answers conditions up to the first that does not hold. -/
def askAll (s : Scene σ ω) : List Condition → Bool × Scene σ ω
  | [] => (true, s)
  | c :: cs =>
    match s.ask h c with
    | (true, s) => askAll s cs
    | (false, s) => (false, s)

/-! ### Statements -/

/-- Whether a statement may be run or offered. Either way it counts as shown. -/
def judge (s : Scene σ ω) (st : Statement) : Bool × Scene σ ω :=
  let (accepted, s) := s.askAll h st.conditions
  let s := s.log Scope.onShow st
  (accepted, s.note (.judged s.player.actor s.player.dialog st accepted))

/-- Runs an instruction. -/
def follow (s : Scene σ ω) : Instruction → Flow ω × Scene σ ω
  | .say actor text => waiting (s.begin h (.say actor text))
  | .choice .. => (.next, s)
  | .code text => (.next, s.perform h (.execute text))
  | .goto label => (.jump label, s.perform h (.goto label))
  | .pause seconds => waiting (s.begin h (.pause seconds))
  | .parrot active =>
    (.next, { s with player := { s.player with parrot := active } }.perform h (.parrot active))
  | .dialog actor => (.next, s.perform h (.handOver actor))
  | .override label =>
    (.next, { s with player := { s.player with override := label } }.perform h (.override label))
  | .shutUp => (.next, s.perform h .shutUp)
  | .allowObjects allow => (.next, s.perform h (.allowObjects allow))
  | .waitWhile code => waiting (s.begin h (.waitWhile code))
  | .waitFor actor => waiting (s.begin h (.waitFor actor))
  | .limit max =>
    let limit := max.toInt.toNat
    (.next, { s with player := { s.player with limit } }.perform h (.limit limit))
where
  /-- What follows when something that takes time has begun. -/
  waiting (begun : ω × Scene σ ω) : Flow ω × Scene σ ω := (.wait begun.1, begun.2)

/-- Runs a statement. -/
def run (s : Scene σ ω) (st : Statement) : Flow ω × Scene σ ω :=
  let p := s.player
  let s := s.remark (.ran p.dialog st.instruction.name p.currentLabel?)
  let (flow, s) := s.follow h st.instruction
  let s := s.log (!·.onShow) st
  (flow, s.note (.used s.player.actor s.player.dialog st))

/-- Runs statements up to where the player has to stop or to jump. -/
def runStatements (s : Scene σ ω) : List Statement → Halt × Scene σ ω
  | [] => if s.player.hasChoices then (.stopped, s.inPhase .choosing) else (.through, s)
  | st :: sts =>
    match s.judge h st with
    | (false, s) => runStatements s.step sts
    | (true, s) =>
      match st.instruction with
      | .choice number _ _ => runStatements (s.offer number).step sts
      | _ =>
        if s.player.hasChoices then (.stopped, s.inPhase .choosing)
        else
          match s.run h st with
          | (.next, s) => runStatements s.step sts
          | (.wait handle, s) => (.stopped, s.await handle)
          | (.jump name, s) => (.jump name, s)

/-- Runs the labels from the current one on, up to where the player stops or has to jump: the answer
is then the label to jump to. -/
def runLabels (s : Scene σ ω) : List Label → Option String × Scene σ ω
  | [] => (none, s.finish)
  | l :: ls =>
    match s.runStatements h (l.statements.drop s.player.cursor) with
    | (.stopped, s) => (none, s)
    | (.jump name, s) => (some name, s)
    | (.through, s) =>
      if ls.isEmpty then (none, s.finish)
      else runLabels ((s.enterAt (s.player.label.elim 0 (· + 1))).inPhase .running) ls

/-- The labels from the current one on. -/
def labelsAhead (s : Scene σ ω) : List Label :=
  s.player.label.elim [] fun i => s.player.script.labels.drop i

/-- Runs the player through at most `jumps` jumps. -/
def runJumps : (jumps : Nat) → Scene σ ω → Scene σ ω
  | 0, s => s
  | jumps + 1, s =>
    match s.runLabels h s.labelsAhead with
    | (none, s) => s
    | (some name, s) =>
      match s.enter name with
      | (false, s) => s
      | (true, s) =>
        let s := s.inPhase .running
        if jumps = 0 then s.remark (.jumpsSpent name) else runJumps jumps s

/-- Runs the player from its place. -/
def advance (s : Scene σ ω) : Scene σ ω :=
  runJumps h (max 1 s.player.config.maxJumps) (s.inPhase .running)

end Scene

end DialogScript
