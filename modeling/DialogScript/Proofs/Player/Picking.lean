import DialogScript.Proofs.Player.Consistency
import DialogScript.Proofs.Player.Lead
import Mathlib.Data.List.Forall2

/-!
# Picking what is shown

The choices on offer are listed in three ways: as the places of statements, as statements in their
places, and as texts. A player is asked for a choice by its place in the list of texts and finds it
in the list of statements. That the lists agree is owed to the places: whatever the owner of a
player does with it, and even if its loader and its configuration are replaced while a dialog is
running, every place that is taken holds a choice.

## Main definitions

* `Scene.Reached`: what can become of a player
* `Player.Reads`: the statement at a place is a choice with a text

## Main results

* `Scene.holdsChoices_of_reached`: every place that is taken holds a choice
* `Player.forall₂_choiceTexts`: the texts are those of the statements on offer, one by one
* `Scene.choose_of_unheeded`, `Scene.choose_of_picked`: what is picked
-/

namespace DialogScript

variable {σ ω : Type}

namespace Scene

variable {h : Host σ ω}

/-- What can become of a player: its owner runs operations with it, and may replace its loader, its
configuration and the state of its host at any time. -/
inductive Reached (h : Host σ ω) : Scene σ ω → Prop
  | new (loader : Loader) (host : σ) : Reached h { player := .new loader, host }
  | apply {s} (hs : Reached h s) (op : Operation) : Reached h (s.apply h op)
  | withLoader {s} (hs : Reached h s) (loader : Loader) :
      Reached h { s with player := s.player.withLoader loader }
  | withConfig {s} (hs : Reached h s) (config : Config) :
      Reached h { s with player := s.player.withConfig config }
  | withHost {s} (hs : Reached h s) (host : σ) : Reached h { s with host }

/-! ### Places -/

theorem holdsChoices_judge {s s₁ : Scene σ ω} {st : Statement} {accepted : Bool}
    (hs : s.player.HoldsChoices) (hjudge : s.judge h st = (accepted, s₁)) :
    s₁.player.HoldsChoices := by
  have hplayer := player_of_judge hjudge
  rw [hplayer]
  exact hs.of_forward rfl rfl rfl (Nat.le_refl _)

theorem holdsChoices_run {s s₁ : Scene σ ω} {st : Statement} {flow : Flow ω}
    (hs : s.player.HoldsChoices) (hrun : s.run h st = (flow, s₁)) : s₁.player.HoldsChoices := by
  have hplayer := player_of_run hrun
  rw [hplayer]
  exact hs.of_forward (Player.obey_slots ..) (Player.obey_script ..) (Player.obey_label ..)
    (Nat.le_of_eq (Player.obey_cursor ..).symm)

theorem holdsChoices_finish (s : Scene σ ω) : s.finish.player.HoldsChoices := by
  rw [player_finish]
  exact Player.holdsChoices_of_empty rfl

/-- Every place that is taken holds a choice after every visit. -/
theorem holdsChoices_of_visit {s : Scene σ ω} {o : Outcome σ ω} (hs : s.player.HoldsChoices)
    (hvisit : Visit h s o) : o.scene.player.HoldsChoices := by
  cases hvisit with
  | nowhere | ended => exact holdsChoices_finish s
  | rejected _ hjudge => exact (holdsChoices_judge hs hjudge).of_forward rfl rfl rfl (Nat.le_succ _)
  | offered hhere hjudge hchoice =>
      exact holdsChoices_offer (holdsChoices_judge hs hjudge) ((here?_judge hjudge).trans hhere)
        hchoice
  | held _ hjudge => exact (holdsChoices_judge hs hjudge).of_forward rfl rfl rfl (Nat.le_refl _)
  | ran _ hjudge _ _ hrun =>
      exact (holdsChoices_run (holdsChoices_judge hs hjudge) hrun).of_forward rfl rfl rfl
        (Nat.le_succ _)
  | awaited _ hjudge _ _ hrun =>
      exact (holdsChoices_run (holdsChoices_judge hs hjudge) hrun).of_forward rfl rfl rfl
        (Nat.le_refl _)
  | jumped _ hjudge _ _ hrun => exact holdsChoices_run (holdsChoices_judge hs hjudge) hrun
  | choosing => exact hs.of_forward rfl rfl rfl (Nat.le_refl _)
  | through => exact Player.holdsChoices_of_empty rfl

theorem holdsChoices_advance {s : Scene σ ω} (hs : s.player.HoldsChoices) :
    (s.advance h).player.HoldsChoices :=
  Activation.induct (P := fun s => s.player.HoldsChoices) (Q := fun s => s.player.HoldsChoices)
    holdsChoices_of_visit holdsChoices_of_visit (fun _ _ _ => holdsChoices_finish _)
    (fun _ _ _ => Player.holdsChoices_of_empty rfl) (fun _ _ _ => Player.holdsChoices_of_empty rfl)
    (activation_advance s) (hs.of_forward rfl rfl rfl (Nat.le_refl _))

theorem holdsChoices_enter (s : Scene σ ω) (name : String) :
    (s.enter name).2.player.HoldsChoices := by
  rw [enter]
  split
  · exact Player.holdsChoices_of_empty rfl
  · exact holdsChoices_finish _

theorem holdsChoices_opening (s : Scene σ ω) (actor dialog label source : String) :
    (s.opening actor dialog label source).2.player.HoldsChoices := by
  rw [opening]
  split
  · rw [player_reading]
    exact Player.holdsChoices_of_empty rfl
  · exact holdsChoices_enter _ _

theorem holdsChoices_pick {s : Scene σ ω} (hs : s.player.HoldsChoices) (choice : Nat) :
    (s.pick h choice).2.player.HoldsChoices := by
  rw [pick]
  split
  · exact hs
  · split
    · exact hs
    · split
      · exact hs
      · split
        · exact hs.of_forward rfl rfl rfl (Nat.le_refl _)
        · exact holdsChoices_enter _ _

theorem holdsChoices_resume {s : Scene σ ω} (hs : s.player.HoldsChoices) :
    (s.resume h).2.player.HoldsChoices := by
  rw [resume]
  rcases hpoll : s.pollWait h with ⟨_ | _, s'⟩ <;> have hplayer := player_pollWait hpoll <;>
    dsimp only at hplayer ⊢
  · rwa [hplayer]
  · rw [goOn]
    split
    · exact holdsChoices_enter _ _
    · refine hs.of_forward ?_ ?_ ?_ ?_ <;> rw [player_step, hplayer]
      exact Nat.le_succ _

theorem holdsChoices_awaken {s : Scene σ ω} (hs : s.player.HoldsChoices) :
    (s.awaken h).2.player.HoldsChoices := by
  by_cases hwaits : s.Waits
  · rw [awaken_of_waits h hwaits]
    exact holdsChoices_resume hs
  · obtain ⟨goes, hlead⟩ := awaken_of_not_waits h hwaits
    rwa [hlead]

theorem holdsChoices_apply {s : Scene σ ω} (hs : s.player.HoldsChoices) (op : Operation) :
    (s.apply h op).player.HoldsChoices := by
  have hlead : (s.lead h op).2.player.HoldsChoices := by
    cases op with
    | start actor dialog label =>
        rw [lead]
        split
        · rw [player_reset]
          exact Player.holdsChoices_of_empty rfl
        · exact holdsChoices_opening s actor dialog label _
    | startSource actor dialog label source =>
        exact holdsChoices_opening s actor dialog label source
    | update => exact holdsChoices_awaken hs
    | choose choice => exact holdsChoices_pick hs choice
    | goTo label => exact holdsChoices_enter s label
    | finish => exact holdsChoices_finish s
    | setLog log => exact hs
  rw [apply_eq_proceed, proceed]
  split
  · exact holdsChoices_advance hlead
  · exact hlead

/-- Whatever becomes of a player, every place that is taken holds a choice. -/
theorem holdsChoices_of_reached {s : Scene σ ω} (hs : Reached h s) : s.player.HoldsChoices := by
  induction hs with
  | new => exact Player.holdsChoices_of_empty rfl
  | apply _ op ih => exact holdsChoices_apply ih op
  | withLoader _ _ ih | withConfig _ _ ih | withHost _ _ ih => exact ih

end Scene

/-! ### The lists of choices -/

namespace Player

/-- The statement at a place is a choice with the text. -/
def Reads (p : Player ω) (i : Nat) (text : String) : Prop :=
  ∃ st number target, p.statement? i = some st ∧ st.choice? = some (number, text, target)

/-- The texts of the choices on offer are those of the statements on offer, one by one. -/
theorem forall₂_choiceTexts {p : Player ω} (hp : p.HoldsChoices) :
    List.Forall₂ p.Reads p.offered p.choiceTexts := by
  have hslots : ∀ i, some i ∈ p.slots.toList → ∃ text, p.Reads i text := by
    intro i hi
    obtain ⟨k, hk⟩ := Scene.exists_slot_of_mem_offered
      (List.mem_filterMap.mpr ⟨some i, hi, rfl⟩ : i ∈ p.offered)
    obtain ⟨-, st, number, text, target, hst, hchoice, -⟩ := hp k i hk
    exact ⟨text, st, number, target, hst, hchoice⟩
  rw [offered, choiceTexts, choices, List.filterMap_map]
  generalize p.slots.toList = slots at hslots
  induction slots with
  | nil => exact .nil
  | cons slot slots ih =>
      have hrest := ih fun i hi => hslots i (List.mem_cons_of_mem slot hi)
      cases slot with
      | none => simpa using hrest
      | some i =>
          obtain ⟨text, hreads⟩ := hslots i List.mem_cons_self
          have htext : ((p.statement? i).bind Statement.choice?).map (·.2.1) = some text := by
            obtain ⟨st, number, target, hst, hchoice⟩ := hreads
            simp [hst, hchoice]
          simp only [List.filterMap_cons, id, Function.comp_apply, Option.bind_some, htext]
          exact .cons hreads hrest

/-- As many texts are listed as choices are on offer. -/
theorem choiceTexts_length {p : Player ω} (hp : p.HoldsChoices) :
    p.choiceTexts.length = p.offered.length := (forall₂_choiceTexts hp).length_eq.symm

/-- To each number in the list of texts belongs the statement in the place of that order. -/
theorem exists_picked {p : Player ω} (hp : p.HoldsChoices) {k : Nat} (hpos : 1 ≤ k)
    (hle : k ≤ p.choiceTexts.length) : ∃ i st number text target, p.offered[k - 1]? = some i ∧
      p.statement? i = some st ∧ st.choice? = some (number, text, target) ∧
      p.choiceTexts[k - 1]? = some text := by
  have hlists := forall₂_choiceTexts hp
  have hoffered : k - 1 < p.offered.length := by
    rw [← choiceTexts_length hp]
    omega
  obtain ⟨st, number, target, hst, hchoice⟩ := hlists.get hoffered (by omega)
  exact ⟨_, st, number, _, target, List.getElem?_eq_getElem hoffered, hst, hchoice,
    List.getElem?_eq_getElem _⟩

theorem picked?_of_offered {p : Player ω} {k i : Nat} (hpos : 1 ≤ k)
    (hi : p.offered[k - 1]? = some i) : p.picked? k = p.statement? i := by
  rw [picked?, if_neg (by omega), hi, Option.bind_some]

theorem picked?_eq_none {p : Player ω} (hp : p.HoldsChoices) {k : Nat}
    (hk : k = 0 ∨ p.choiceTexts.length < k) : p.picked? k = none := by
  rw [picked?]
  split
  · rfl
  · rw [choiceTexts_length hp] at hk
    rw [List.getElem?_eq_none (by omega), Option.bind_none]

end Player

namespace Scene

variable {h : Host σ ω}

/-- A choice that is not listed is not heeded. -/
theorem choose_of_unheeded {s : Scene σ ω} (hs : s.player.HoldsChoices) {k : Nat}
    (hk : s.player.phase ≠ .choosing ∨ k = 0 ∨ s.player.choiceTexts.length < k) :
    ∃ r, s.choose h k = s.remark r := by
  rw [choose_eq_proceed, pick]
  by_cases hphase : s.player.phase = .choosing
  · rw [if_neg (not_not_intro hphase), Player.picked?_eq_none hs (hk.resolve_left (absurd hphase))]
    exact ⟨_, rfl⟩
  · rw [if_pos hphase]
    exact ⟨_, rfl⟩

/-- A choice that is picked is used, and either its text is said or the player goes to its label. -/
theorem choose_of_picked {s : Scene σ ω} {k : Nat} {st : Statement} {number : Int32}
    {text target : String} (hphase : s.player.phase = .choosing)
    (hpicked : s.player.picked? k = some st) (hchoice : st.choice? = some (number, text, target)) :
    s.choose h k =
      if s.player.parrot then (s.use st).echo h text target else (s.use st).goTo h target := by
  rw [choose_eq_proceed, pick, if_neg (not_not_intro hphase), hpicked]
  dsimp only
  rw [hchoice]
  dsimp only
  split
  · rfl
  · exact (goTo_eq_proceed _ _).symm

end Scene

end DialogScript
