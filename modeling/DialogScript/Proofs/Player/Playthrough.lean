import DialogScript.Proofs.Player.View
import Mathlib.Logic.Function.Iterate

/-!
# Playthroughs

A dialog is played through by starting it and then doing over and over what is due: the next of
some given choices is picked when choices are offered, and the player is updated otherwise. Nothing
is due any more when the dialog is over or no choice is left to be picked.

## Main definitions

* `Playthrough`, `Playthrough.due?`: a scene with the choices to be picked, and what is due
* `Playthrough.stepBy`, `Playthrough.step`, `Playthrough.run`: a step, and many of them
* `Playthrough.ofStart`: the playthrough when a dialog has been started

## Main results

* `Host.View.stepBy_playthrough`: a step that commutes with a view of the scene commutes with the
  view of the playthrough
-/

namespace DialogScript

variable {σ τ ω ν : Type}

/-- A scene with the choices that are to be picked in it. -/
structure Playthrough (σ ω : Type) where
  scene : Scene σ ω
  choices : List Nat

namespace Playthrough

/-- The operation that is due, and the choices that are left behind it. -/
def due? (p : Playthrough σ ω) : Option (Operation × List Nat) :=
  match p.scene.player.phase, p.choices with
  | .idle, _ | .choosing, [] => none
  | .choosing, choice :: choices => some (.choose choice, choices)
  | _, choices => some (.update, choices)

/-- Does what is due in a given way. -/
def stepBy (f : Scene σ ω → Operation → Scene σ ω) (p : Playthrough σ ω) : Playthrough σ ω :=
  match p.due? with
  | none => p
  | some (op, choices) => ⟨f p.scene op, choices⟩

variable (h : Host σ ω)

/-- Does what is due. -/
def step : Playthrough σ ω → Playthrough σ ω := stepBy (Scene.apply h)

/-- Does what is due, so many times. -/
def run (n : Nat) : Playthrough σ ω → Playthrough σ ω := (step h)^[n]

/-- The playthrough when a dialog has been started from its source. -/
def ofStart (s : Scene σ ω) (actor dialog label source : String) (choices : List Nat) :
    Playthrough σ ω :=
  ⟨s.apply h (.startSource actor dialog label source), choices⟩

@[simp] theorem run_zero (p : Playthrough σ ω) : p.run h 0 = p := rfl

theorem run_succ (n : Nat) (p : Playthrough σ ω) : p.run h (n + 1) = (p.run h n).step h :=
  Function.iterate_succ_apply' _ n p

theorem run_add (m n : Nat) (p : Playthrough σ ω) : p.run h (m + n) = (p.run h n).run h m :=
  Function.iterate_add_apply _ m n p

/-- Only updates and choices are ever due. -/
theorem of_due? {p : Playthrough σ ω} {op : Operation} {choices : List Nat}
    (hdue : p.due? = some (op, choices)) : op = .update ∨ ∃ choice, op = .choose choice := by
  rw [due?] at hdue
  split at hdue
  · cases hdue
  · cases hdue
  · exact .inr ⟨_, (Prod.mk.inj (Option.some.inj hdue)).1.symm⟩
  · exact .inl (Prod.mk.inj (Option.some.inj hdue)).1.symm

end Playthrough

namespace Host.View

variable {h : Host σ ω} {g : Host τ ν} (V : h.View g)

/-- The image of a playthrough. -/
@[simps] def playthrough (p : Playthrough σ ω) : Playthrough τ ν :=
  ⟨V.scene p.scene, p.choices⟩

theorem due?_playthrough (p : Playthrough σ ω) : (V.playthrough p).due? = p.due? := rfl

theorem stepBy_playthrough {f : Scene σ ω → Operation → Scene σ ω}
    {f' : Scene τ ν → Operation → Scene τ ν}
    (hf : ∀ s op, f' (V.scene s) op = V.scene (f s op)) (p : Playthrough σ ω) :
    (V.playthrough p).stepBy f' = V.playthrough (p.stepBy f) := by
  rw [Playthrough.stepBy, Playthrough.stepBy, due?_playthrough]
  rcases p.due? with _ | ⟨op, choices⟩
  · rfl
  · exact congrArg (Playthrough.mk · choices) (hf p.scene op)

end Host.View

end DialogScript
