import DialogScript.Player.Session

/-!
# What the parts of a session change

Each part of a session changes only some of the player: calls of the host and remarks leave the
player alone, asking conditions leaves all but the log, and running an instruction sets what the
instruction names. This file says so, one lemma for each part, together with the events that the
part appends to the transcript.

## Main definitions

* `Scene.events`: the transcript as a list
* `Scene.use`: what running a statement and picking a choice have in common
* `Instruction.takesTime`: the player waits after the instruction
* `Player.obey`: the player after an instruction that sets one of its settings

## Main results

* `Player.hasChoices_iff`: a place is taken
* `Scene.player_of_judge`, `Scene.player_follow`, `Scene.player_of_run`: the player after a
  statement has been judged and run
* `Scene.flow_follow`: what follows an instruction is fixed by the instruction
-/

namespace DialogScript

/-- The player waits after the instruction. -/
def Instruction.takesTime : Instruction → Bool
  | say .. | pause _ | waitFor _ | waitWhile _ => true
  | _ => false

/-- The player after an instruction: some instructions set what they name. -/
def Player.obey {ω : Type} (p : Player ω) : Instruction → Player ω
  | .parrot active => { p with parrot := active }
  | .override label => { p with override := label }
  | .limit max => { p with limit := max.toInt.toNat }
  | _ => p

namespace Player

variable {ω : Type} (p : Player ω) (i : Instruction)

/-! ### What an instruction leaves alone -/

@[simp] theorem obey_config : (p.obey i).config = p.config := by cases i <;> rfl

@[simp] theorem obey_loader : (p.obey i).loader = p.loader := by cases i <;> rfl

@[simp] theorem obey_log : (p.obey i).log = p.log := by cases i <;> rfl

@[simp] theorem obey_script : (p.obey i).script = p.script := by cases i <;> rfl

@[simp] theorem obey_actor : (p.obey i).actor = p.actor := by cases i <;> rfl

@[simp] theorem obey_dialog : (p.obey i).dialog = p.dialog := by cases i <;> rfl

@[simp] theorem obey_label : (p.obey i).label = p.label := by cases i <;> rfl

@[simp] theorem obey_cursor : (p.obey i).cursor = p.cursor := by cases i <;> rfl

@[simp] theorem obey_slots : (p.obey i).slots = p.slots := by cases i <;> rfl

@[simp] theorem obey_phase : (p.obey i).phase = p.phase := by cases i <;> rfl

@[simp] theorem obey_wait : (p.obey i).wait = p.wait := by cases i <;> rfl

@[simp] theorem obey_destination : (p.obey i).destination = p.destination := by cases i <;> rfl

end Player

theorem Statement.choice?_eq_some {st : Statement} {number : Int32} {text target : String} :
    st.choice? = some (number, text, target) ↔ st.instruction = .choice number text target := by
  unfold Statement.choice?
  split <;> simp_all

theorem Statement.choice?_eq_none {st : Statement} :
    st.choice? = none ↔ ∀ number text target, st.instruction ≠ .choice number text target := by
  unfold Statement.choice?
  split <;> simp_all

namespace Player

variable {ω : Type}

theorem hasChoices_iff {p : Player ω} :
    p.hasChoices ↔ ∃ k : Fin maxChoices, ∃ i, p.slots.get k = some i := by
  simp only [hasChoices, List.any_eq_true, Option.isSome_iff_exists]
  constructor
  · rintro ⟨slot, hslot, i, rfl⟩
    obtain ⟨k, hk, hget⟩ := Vector.mem_iff_getElem.mp (Vector.mem_toList_iff.mp hslot)
    exact ⟨⟨k, hk⟩, i, hget⟩
  · rintro ⟨k, i, hk⟩
    exact ⟨some i, Vector.mem_toList_iff.mpr (hk ▸ Vector.getElem_mem k.isLt), i, rfl⟩

theorem hasChoices_eq_false_iff {p : Player ω} :
    p.hasChoices = false ↔ ∀ k : Fin maxChoices, p.slots.get k = none := by
  rw [← Bool.not_eq_true, hasChoices_iff]
  simp only [not_exists, Option.eq_none_iff_forall_ne_some, ne_eq]

theorem hasChoices_congr {p q : Player ω} (h : p.slots = q.slots) :
    p.hasChoices = q.hasChoices := by
  rw [hasChoices, hasChoices, h]

theorem get_empty (k : Fin maxChoices) : Slots.empty.get k = none := by
  exact Vector.getElem_replicate k.isLt

theorem get_set_self (slots : Slots) (k : Fin maxChoices) (x : Option Nat) :
    (slots.set k x k.isLt).get k = x := Vector.getElem_set_self k.isLt

theorem get_set_of_ne (slots : Slots) {j k : Fin maxChoices} (hne : k ≠ j) (x : Option Nat) :
    (slots.set j x j.isLt).get k = slots.get k :=
  Vector.getElem_set_ne j.isLt k.isLt fun heq => hne (Fin.ext heq.symm)

theorem hasChoices_of_empty {p : Player ω} (h : p.slots = .empty) : p.hasChoices = false := by
  rw [hasChoices_eq_false_iff, h]
  exact get_empty

theorem eq_empty_of_hasChoices {p : Player ω} (h : p.hasChoices = false) : p.slots = .empty := by
  rw [hasChoices_eq_false_iff] at h
  refine Vector.ext fun k hk => ?_
  exact (h ⟨k, hk⟩).trans (get_empty ⟨k, hk⟩).symm

theorem offered_length (p : Player ω) : p.offered.length = p.slots.countP Option.isSome := by
  rw [offered, List.length_filterMap_eq_countP, ← Vector.countP_toList]
  rfl

end Player

namespace Scene

variable {σ ω : Type} (h : Host σ ω)

/-- The transcript as a list. -/
def events (s : Scene σ ω) : List (Event ω) := s.transcript.toList

/-! ### The player -/

@[simp] theorem player_note (s : Scene σ ω) (e : Event ω) : (s.note e).player = s.player := rfl

@[simp] theorem player_remark (s : Scene σ ω) (r : Remark) : (s.remark r).player = s.player := rfl

@[simp] theorem player_inPhase (s : Scene σ ω) (phase : Phase) :
    (s.inPhase phase).player = { s.player with phase } := rfl

@[simp] theorem player_await (s : Scene σ ω) (handle : ω) :
    (s.await handle).player = { s.player with wait := some handle, phase := .waiting } := rfl

@[simp] theorem player_step (s : Scene σ ω) :
    s.step.player = { s.player with cursor := s.player.cursor + 1 } := rfl

@[simp] theorem player_enterAt (s : Scene σ ω) (i : Nat) : (s.enterAt i).player = { s.player with
    phase := .entered, label := some i, cursor := 0, slots := .empty } := rfl

@[simp] theorem player_finish (s : Scene σ ω) : s.finish.player = { s.player with
    phase := .idle, label := none, cursor := 0, wait := none, destination := "",
    slots := .empty } := by
  unfold finish
  split <;> rfl

/-- Offering a choice only remarks on it, if it has no place, its place is taken or enough choices
are on offer; or it puts the cursor into the place of its number. -/
theorem offer_cases (s : Scene σ ω) (number : Int32) :
    ((∃ r, s.offer number = s.remark r) ∧ ∀ k : Fin maxChoices, number.toInt = (k : Int) + 1 →
        s.player.slots.get k = none → s.player.limit ≤ s.player.offered.length) ∨
      ∃ k : Fin maxChoices, number.toInt = (k : Int) + 1 ∧ s.player.slots.get k = none ∧
        s.player.offered.length < s.player.limit ∧
        s.offer number = { s with player := { s.player with
          slots := s.player.slots.set k (some s.player.cursor) k.isLt } } := by
  by_cases hrange : 1 ≤ number.toInt ∧ (number.toInt - 1).toNat < maxChoices
  · have hnumber : number.toInt = ((number.toInt - 1).toNat : Int) + 1 := by omega
    have hplace := hrange.2
    by_cases htaken : s.player.slots[(number.toInt - 1).toNat].isSome = true
    · refine .inl ⟨⟨.taken number, ?_⟩, fun k hk hfree => ?_⟩
      · simp only [offer, hrange, and_self, dif_pos, htaken, if_pos]
      · have hk : (number.toInt - 1).toNat = k := by omega
        simp only [hk] at htaken
        rw [show s.player.slots[k.val] = none from hfree] at htaken
        cases htaken
    · by_cases hlimit : s.player.limit ≤ s.player.offered.length
      · refine .inl ⟨⟨.overLimit number s.player.limit, ?_⟩, fun _ _ _ => hlimit⟩
        rw [offer, dif_pos hrange, if_neg htaken, if_pos hlimit]
      · refine .inr ⟨⟨_, hrange.2⟩, hnumber, ?_, Nat.lt_of_not_le hlimit, ?_⟩
        · exact Option.not_isSome_iff_eq_none.mp htaken
        · rw [offer, dif_pos hrange, if_neg htaken, if_neg hlimit]
  · refine .inl ⟨⟨.outOfRange s.player.dialog number, by rw [offer, dif_neg hrange]⟩, ?_⟩
    intro k hk
    have := k.isLt
    omega

theorem player_offer (s : Scene σ ω) (number : Int32) :
    ∃ slots, (s.offer number).player = { s.player with slots } := by
  rcases offer_cases s number with ⟨⟨r, hoffer⟩, -⟩ | ⟨k, -, -, -, hoffer⟩
  · exact ⟨s.player.slots, by rw [hoffer, player_remark]⟩
  · exact ⟨_, by rw [hoffer]⟩

@[simp] theorem player_perform (s : Scene σ ω) (e : Effect) :
    (s.perform h e).player = s.player := rfl

@[simp] theorem player_begin (s : Scene σ ω) (d : Delay) :
    (s.begin h d).2.player = s.player := rfl

@[simp] theorem player_poll (s : Scene σ ω) (handle : ω) :
    (s.poll h handle).2.player = s.player := rfl

@[simp] theorem player_ask (s : Scene σ ω) (c : Condition) :
    (s.ask h c).2.player = s.player := by
  unfold ask
  split <;> rfl

theorem askAll_cons (s : Scene σ ω) (c : Condition) (cs : List Condition) :
    s.askAll h (c :: cs) =
      if (s.ask h c).1 then (s.ask h c).2.askAll h cs else (false, (s.ask h c).2) := by
  rw [askAll]
  rcases s.ask h c with ⟨_ | _, s'⟩ <;> rfl

@[simp] theorem player_askAll (s : Scene σ ω) (cs : List Condition) :
    (s.askAll h cs).2.player = s.player := by
  induction cs generalizing s with
  | nil => rfl
  | cons c cs ih =>
      rw [askAll_cons]
      split
      · rw [ih, player_ask]
      · rw [player_ask]

/-- Polling keeps all of the player but what it waits for. -/
theorem player_pollWait {h : Host σ ω} {s s' : Scene σ ω} {ready : Bool}
    (hpoll : s.pollWait h = (ready, s')) :
    s'.player = match ready with
      | true => { s.player with wait := none }
      | false => s.player := by
  rw [pollWait] at hpoll
  split at hpoll
  · rename_i hwait
    obtain ⟨rfl, rfl⟩ := Prod.mk.inj hpoll
    dsimp only
    rw [← hwait]
  · rename_i handle hwait
    have hplayer := player_poll h s handle
    split at hpoll <;> rename_i hanswer <;> rw [hanswer] at hplayer <;>
      obtain ⟨rfl, rfl⟩ := Prod.mk.inj hpoll <;> dsimp only at hplayer ⊢ <;> rw [hplayer]

theorem player_judge (s : Scene σ ω) (st : Statement) :
    (s.judge h st).2.player = { s.player with
      log := s.player.log.extend (st.entries Scope.onShow s.player.actor s.player.dialog) } := by
  have hplayer := player_askAll h s st.conditions
  change ((s.askAll h st.conditions).2.log Scope.onShow st).player = _
  simp only [log, hplayer]

variable {h} in
theorem player_of_judge {s s₁ : Scene σ ω} {st : Statement} {accepted : Bool}
    (hjudge : s.judge h st = (accepted, s₁)) : s₁.player = { s.player with
      log := s.player.log.extend (st.entries Scope.onShow s.player.actor s.player.dialog) } := by
  rw [← player_judge h, hjudge]

/-- What running a statement ends with and picking a choice begins with: what the statement uses up
is recorded, and then its use is noted. -/
def use (s : Scene σ ω) (st : Statement) : Scene σ ω :=
  (s.log (!·.onShow) st).note (.used s.player.actor s.player.dialog st)

theorem player_use (s : Scene σ ω) (st : Statement) :
    (s.use st).player = { s.player with
      log := s.player.log.extend
        (st.entries (!·.onShow) s.player.actor s.player.dialog) } := rfl

theorem player_follow (s : Scene σ ω) (i : Instruction) :
    (s.follow h i).2.player = s.player.obey i := by
  cases i <;> rfl

theorem player_run (s : Scene σ ω) (st : Statement) :
    (s.run h st).2.player = { s.player.obey st.instruction with
      log := s.player.log.extend
        (st.entries (!·.onShow) s.player.actor s.player.dialog) } := by
  change ((((s.remark _).follow h st.instruction).2).use st).player = _
  rw [player_use, player_follow]
  cases st.instruction <;> rfl

variable {h} in
theorem player_of_run {s s₁ : Scene σ ω} {st : Statement} {flow : Flow ω}
    (hrun : s.run h st = (flow, s₁)) : s₁.player = { s.player.obey st.instruction with
      log := s.player.log.extend
        (st.entries (!·.onShow) s.player.actor s.player.dialog) } := by
  rw [← player_run h, hrun]

/-- What follows an instruction is fixed by the instruction. -/
theorem flow_follow (s : Scene σ ω) (i : Instruction) :
    match (s.follow h i).1 with
    | .next => i.takesTime = false ∧ ∀ label, i ≠ .goto label
    | .wait _ => i.takesTime = true
    | .jump name => i = .goto name := by
  cases i <;> simp [follow, follow.waiting, Instruction.takesTime]

theorem flow_run (s : Scene σ ω) (st : Statement) :
    (s.run h st).1 =
      ((s.remark (.ran s.player.dialog st.instruction.name s.player.currentLabel?)).follow h
        st.instruction).1 := rfl

end Scene

end DialogScript
