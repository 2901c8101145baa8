import DialogScript.Player.Run
import DialogScript.Script.Reading

/-!
# Sessions

What can be done with a player: start a dialog, update it once a frame, pick a choice, go to a label
and end the dialog. Starting forgets the session before.

## Main definitions

* `Scene.start`, `Scene.startSource`, `Scene.update`, `Scene.choose`, `Scene.goTo`, `Scene.finish`
-/

namespace DialogScript

namespace Scene

variable {σ ω : Type} (h : Host σ ω)

/-- The player comes to the label of a name and runs from there. -/
def goTo (s : Scene σ ω) (name : String) : Scene σ ω :=
  match s.enter name with
  | (true, s) => s.advance h
  | (false, s) => s

/-- The player drops its dialog and what belongs to the session. -/
def reset (s : Scene σ ω) : Scene σ ω :=
  let s := s.finish
  let p := s.player
  { s with player := { p with
      log := p.log.purgeTempOnce, parrot := p.config.parrot, limit := p.config.limit,
      override := "", script := {} } }

/-- Starts a dialog from its source at a label. If there is an error in the source, the player is
left without a dialog. -/
def startSource (s : Scene σ ω) (actor dialog label source : String) :
    Option Error × Scene σ ω :=
  let s := (Script.notices source).foldl (fun s n => s.remark (.read n)) s.reset
  match Script.read source with
  | .error e => (some (e.within { source := some (dialogFileName dialog) }), s)
  | .ok script =>
    let s := s.remark (.started actor dialog label)
    let s := { s with player := { s.player with script, actor, dialog } }
    (none, s.goTo h label)

/-- Starts the dialog of a name at a label. If the dialog is not found or there is an error in its
source, the player is left without a dialog. -/
def start (s : Scene σ ω) (actor dialog label : String) : Option Error × Scene σ ω :=
  match s.player.loader dialog with
  | .error e => (some e, s.reset)
  | .ok source => s.startSource h actor dialog label source

/-- Whether the player has nothing left to wait for. What is over is let go. -/
def pollWait (s : Scene σ ω) : Bool × Scene σ ω :=
  match s.player.wait with
  | none => (true, s)
  | some handle =>
    match s.poll h handle with
    | (true, s) => (true, { s with player := { s.player with wait := none } })
    | (false, s) => (false, s)

/-- Picks one of the choices on offer by its place among them, counted from one. -/
def choose (s : Scene σ ω) (choice : Nat) : Scene σ ω :=
  let p := s.player
  if p.phase ≠ .choosing then s.remark (.pickIgnored choice p.phase)
  else
    let picked := if choice = 0 then none else p.offered[choice - 1]?.bind p.statement?
    match picked with
    | none => s.remark (.noSuchChoice choice)
    | some st =>
      match st.choice? with
      | none => s
      | some (_, text, target) =>
        let s := s.log (!·.onShow) st
        let s := s.note (.used s.player.actor s.player.dialog st)
        if p.parrot then
          let s := { s with player := { s.player with phase := .echoing, destination := target } }
          let (handle, s) := s.begin h (.say p.actor text)
          { s with player := { s.player with wait := some handle } }
        else s.goTo h target

/-- Lets the dialog go on, once a frame. -/
def update (s : Scene σ ω) : Scene σ ω :=
  match s.player.phase with
  | .idle | .choosing => s
  | .entered | .running => s.advance h
  | .waiting =>
    match s.pollWait h with
    | (true, s) => s.step.advance h
    | (false, s) => s
  | .echoing =>
    match s.pollWait h with
    | (true, s) =>
      let destination := s.player.destination
      { s with player := { s.player with destination := "" } }.goTo h destination
    | (false, s) => s

end Scene

end DialogScript
