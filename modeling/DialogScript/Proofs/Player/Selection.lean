import DialogScript.Proofs.Player.Consistency
import DialogScript.Proofs.Player.Lead
import Mathlib.Data.List.FinRange
import Mathlib.Data.List.Nodup

/-!
# Which choices are on offer

Choices come on offer one by one while statements are run, between conditions that do not hold,
numbers without a place, numbers that come again and a limit that the script may set. What is on
offer in the end is a selection from the choices that have been accepted since the player has come
to its label or has last run another statement there: of those with a number from one to nine the
first of each number, and of these as many as the limit allows.

The history of a run is the list of the scenes in which the player has visited a place. From it the
accepted choices are gathered; each visit that gathers one more choice selects from one more.

## Main definitions

* `Offer`, `Offer.selected`: an accepted choice, and a selection
* `Offer.placed`, `Offer.inOrder`: selected choices in their places, and in the order of their
  numbers
* `Scene.Trail`, `Scene.Journey`: the visits of an activation and of a run
* `Scene.accepted`: the choices accepted in the current label
* `Player.Offers`: the choices on offer are selected from accepted ones

## Main results

* `Offer.fill_placed`: offering one more choice selects from one more
* `Offer.perm_inOrder`: selected choices in the order of their numbers
* `Scene.standing_of_on`, `Scene.settled_of_trail`: what visits and activations gather
* `Scene.choices_of_journey`: which choices are on offer
-/

namespace DialogScript

/-! ### Selections -/

/-- A choice that has been accepted: its place in the label, its number and its text. -/
structure Offer where
  place : Nat
  number : Int32
  text : String
  deriving DecidableEq, Repr

namespace Offer

/-- There is a place for choices of the number. -/
def hasPlace (o : Offer) : Bool := decide (1 ≤ o.number.toInt ∧ o.number.toInt ≤ maxChoices)

/-- The first choice of each number. -/
def firsts : List Offer → List Offer
  | [] => []
  | o :: os => o :: (firsts os).filter (·.number ≠ o.number)

/-- The choices that are shown: of those with a place the first of each number, up to the limit. -/
def selected (limit : Nat) (os : List Offer) : List Offer :=
  (firsts (os.filter hasPlace)).take limit

/-- The first of some choices for the place `k`, counted from zero. -/
def at? (os : List Offer) (k : Fin maxChoices) : Option Offer :=
  os.find? fun o => o.number.toInt = (k : Int) + 1

/-- The choices in the places of their numbers. -/
def placed (os : List Offer) : Slots := Vector.ofFn fun k => (at? os k).map (·.place)

/-- The choices in the order of their numbers. -/
def inOrder (os : List Offer) : List Offer := (List.finRange maxChoices).filterMap (at? os)

/-- Choices with places of their own. -/
structure Apart (os : List Offer) : Prop where
  hasPlace : ∀ o ∈ os, o.hasPlace = true
  pairwise : os.Pairwise fun a b => a.number ≠ b.number

theorem mem_firsts {o : Offer} : {os : List Offer} → o ∈ firsts os → o ∈ os
  | _ :: _, ho => by
    rcases List.mem_cons.mp ho with rfl | ho
    · exact List.mem_cons_self
    · exact List.mem_cons_of_mem _ (mem_firsts (List.mem_filter.mp ho).1)

theorem exists_mem_firsts {o : Offer} :
    {os : List Offer} → o ∈ os → ∃ o' ∈ firsts os, o'.number = o.number
  | a :: os, ho => by
    rcases List.mem_cons.mp ho with rfl | ho
    · exact ⟨o, List.mem_cons_self, rfl⟩
    · obtain ⟨o', ho', hnumber⟩ := exists_mem_firsts ho
      by_cases ha : o'.number = a.number
      · exact ⟨a, List.mem_cons_self, ha.symm.trans hnumber⟩
      · refine ⟨o', List.mem_cons_of_mem _ (List.mem_filter.mpr ⟨ho', ?_⟩), hnumber⟩
        simpa using ha

theorem pairwise_firsts : (os : List Offer) → (firsts os).Pairwise fun a b => a.number ≠ b.number
  | [] => .nil
  | o :: os => by
    refine .cons (fun o' ho' => ?_) ((pairwise_firsts os).filter _)
    have hne := (List.mem_filter.mp ho').2
    exact fun heq => (of_decide_eq_true hne) heq.symm

/-- One more choice is the first of its number, or it comes too late. -/
theorem firsts_concat (os : List Offer) (o : Offer) : firsts (os ++ [o]) =
    if ∃ o' ∈ os, o'.number = o.number then firsts os else firsts os ++ [o] := by
  induction os with
  | nil => simp [firsts]
  | cons a os ih =>
      rw [List.cons_append, firsts, ih, firsts]
      by_cases ha : a.number = o.number
      · rw [if_pos (⟨a, List.mem_cons_self, ha⟩ : ∃ o' ∈ a :: os, o'.number = o.number)]
        split
        · rfl
        · rw [List.filter_append, List.filter_cons_of_neg (by simp [ha]), List.filter_nil,
            List.append_nil]
      · by_cases hos : ∃ o' ∈ os, o'.number = o.number
        · obtain ⟨o', ho', hnumber⟩ := hos
          rw [if_pos ⟨o', ho', hnumber⟩, if_pos ⟨o', List.mem_cons_of_mem a ho', hnumber⟩]
        · have hnone : ¬∃ o' ∈ a :: os, o'.number = o.number := by
            simpa [ha] using hos
          have hkept : [o].filter (·.number ≠ a.number) = [o] := by simp [Ne.symm ha]
          rw [if_neg hos, if_neg hnone, List.filter_append, hkept, List.cons_append]

theorem selected_nil (limit : Nat) : selected limit [] = [] := List.take_nil

theorem apart_selected (limit : Nat) (os : List Offer) : Apart (selected limit os) where
  hasPlace _ ho := (List.mem_filter.mp (mem_firsts (List.mem_of_mem_take ho))).2
  pairwise := (pairwise_firsts _).sublist (List.take_sublist _ _)

theorem of_mem_selected {limit : Nat} {os : List Offer} {o : Offer} (ho : o ∈ selected limit os) :
    o ∈ os := (List.mem_filter.mp (mem_firsts (List.mem_of_mem_take ho))).1

/-! ### Places -/

theorem of_at? {os : List Offer} {k : Fin maxChoices} {o : Offer} (hat : at? os k = some o) :
    o ∈ os ∧ o.number.toInt = (k : Int) + 1 :=
  ⟨List.mem_of_find?_eq_some hat, of_decide_eq_true (List.find?_some hat :)⟩

theorem at?_eq_none_iff {os : List Offer} {k : Fin maxChoices} :
    at? os k = none ↔ ∀ o ∈ os, o.number.toInt ≠ (k : Int) + 1 := by
  simp [at?]

theorem Apart.eq_of_number {os : List Offer} (hos : Apart os) {a b : Offer} (ha : a ∈ os)
    (hb : b ∈ os) (hnumber : a.number = b.number) : a = b :=
  List.inj_on_of_nodup_map (List.pairwise_map.mpr hos.pairwise) ha hb hnumber

/-- A choice with a place of its own is found there. -/
theorem Apart.at?_eq {os : List Offer} (hos : Apart os) {o : Offer} (ho : o ∈ os)
    {k : Fin maxChoices} (hk : o.number.toInt = (k : Int) + 1) : at? os k = some o := by
  cases hat : at? os k with
  | none => exact absurd hk (at?_eq_none_iff.mp hat o ho)
  | some o' =>
      obtain ⟨ho', hk'⟩ := of_at? hat
      rw [hos.eq_of_number ho' ho (Int32.toInt_inj.mp (hk'.trans hk.symm))]

theorem Apart.exists_place {os : List Offer} (hos : Apart os) {o : Offer} (ho : o ∈ os) :
    ∃ k : Fin maxChoices, o.number.toInt = (k : Int) + 1 := by
  obtain ⟨hpos, hle⟩ := of_decide_eq_true (hos.hasPlace o ho)
  exact ⟨⟨(o.number.toInt - 1).toNat, by omega⟩, by dsimp only; omega⟩

theorem Apart.mem_inOrder {os : List Offer} (hos : Apart os) {o : Offer} :
    o ∈ inOrder os ↔ o ∈ os := by
  rw [inOrder, List.mem_filterMap]
  constructor
  · rintro ⟨k, -, hat⟩
    exact (of_at? hat).1
  · intro ho
    obtain ⟨k, hk⟩ := hos.exists_place ho
    exact ⟨k, List.mem_finRange k, hos.at?_eq ho hk⟩

theorem pairwise_inOrder (os : List Offer) :
    (inOrder os).Pairwise fun a b => a.number.toInt < b.number.toInt := by
  refine List.Pairwise.filterMap _ (fun j k hjk a ha b hb => ?_) (List.pairwise_lt_finRange _)
  rw [(of_at? ha).2, (of_at? hb).2]
  have hlt : (j : Nat) < k := hjk
  omega

/-- The order of the numbers leaves out nothing and adds nothing. -/
theorem perm_inOrder {os : List Offer} (hos : Apart os) : (inOrder os).Perm os := by
  refine (List.perm_ext_iff_of_nodup ?_ ?_).mpr fun o => hos.mem_inOrder
  · exact (pairwise_inOrder os).imp fun hlt heq => by simp [heq] at hlt
  · exact hos.pairwise.imp fun hne heq => hne (by rw [heq])

theorem get_placed (os : List Offer) (k : Fin maxChoices) :
    (placed os).get k = (at? os k).map (·.place) := Vector.getElem_ofFn k.isLt

theorem toList_placed (os : List Offer) :
    (placed os).toList = (List.finRange maxChoices).map fun k => (at? os k).map (·.place) := by
  rw [placed, Vector.toList_ofFn, List.ofFn_eq_map]

/-- As many places are taken as there are choices. -/
theorem countP_placed {os : List Offer} (hos : Apart os) :
    (placed os).countP Option.isSome = os.length := by
  rw [← (perm_inOrder hos).length_eq, inOrder, List.length_filterMap_eq_countP,
    ← Vector.countP_toList, toList_placed, List.countP_map]
  simp [Function.comp_def]

/-- One more choice is shown if there is a place for its number, no choice of its number is shown
and fewer choices are shown than the limit allows. -/
theorem selected_concat (limit : Nat) (os : List Offer) (o : Offer) :
    selected limit (os ++ [o]) =
      if o.hasPlace = true ∧ (∀ o' ∈ selected limit os, o'.number ≠ o.number) ∧
          (selected limit os).length < limit then selected limit os ++ [o]
      else selected limit os := by
  have hroom : (selected limit os).length < limit →
      selected limit os = firsts (os.filter hasPlace) := fun hlt => by
    rw [selected, List.length_take] at hlt
    exact List.take_of_length_le (by omega)
  by_cases hplace : o.hasPlace = true
  · have hfilter : (os ++ [o]).filter hasPlace = os.filter hasPlace ++ [o] := by
      simp [List.filter_append, hplace]
    rw [selected, hfilter, firsts_concat]
    by_cases hlate : ∃ o' ∈ os.filter hasPlace, o'.number = o.number
    · rw [if_pos hlate, if_neg, ← selected]
      rintro ⟨-, hnone, hlt⟩
      obtain ⟨o₁, ho₁, hnumber₁⟩ := hlate
      obtain ⟨o₂, ho₂, hnumber₂⟩ := exists_mem_firsts ho₁
      exact hnone o₂ (hroom hlt ▸ ho₂) (hnumber₂.trans hnumber₁)
    · rw [if_neg hlate]
      by_cases hlt : (selected limit os).length < limit
      · have hnone : ∀ o' ∈ selected limit os, o'.number ≠ o.number := fun o' ho' heq =>
          hlate ⟨o', mem_firsts (hroom hlt ▸ ho'), heq⟩
        rw [if_pos ⟨hplace, hnone, hlt⟩, hroom hlt, List.take_of_length_le]
        rw [hroom hlt] at hlt
        simpa [Nat.succ_le_iff] using hlt
      · rw [if_neg fun hall => hlt hall.2.2, List.take_append_of_le_length, ← selected]
        rw [selected, List.length_take] at hlt
        omega
  · rw [if_neg fun hall => hplace hall.1]
    simp [selected, List.filter_append, hplace]

theorem at?_concat (os : List Offer) (o : Offer) (k : Fin maxChoices) :
    at? (os ++ [o]) k =
      (at? os k).or (if o.number.toInt = (k : Int) + 1 then some o else none) := by
  rw [at?, List.find?_append, ← at?]
  simp only [List.find?_singleton, decide_eq_true_eq]

/-- Offering one more choice selects from one more. -/
theorem fill_placed (limit : Nat) (os : List Offer) (o : Offer) :
    (placed (selected limit os)).fill limit o.number o.place =
      placed (selected limit (os ++ [o])) := by
  have hapart := apart_selected limit os
  refine Vector.ext fun k hk => ?_
  change _ = (placed (selected limit (os ++ [o]))).get ⟨k, hk⟩
  rw [Slots.fill, Vector.getElem_ofFn, countP_placed hapart, selected_concat]
  by_cases hnumber : o.number.toInt = (k : Int) + 1
  · -- the place is free if no choice of the number is shown
    have hplace : o.hasPlace = true := decide_eq_true (by omega)
    have hfree : (placed (selected limit os)).get ⟨k, hk⟩ = none ↔
        ∀ o' ∈ selected limit os, o'.number ≠ o.number := by
      rw [get_placed, Option.map_eq_none_iff, at?_eq_none_iff]
      refine forall₂_congr fun o' _ => not_congr ?_
      rw [← Int32.toInt_inj, hnumber]
    simp only [hnumber, hfree, hplace, true_and]
    split
    · rename_i hshown
      have hnone := hfree.mpr hshown.1
      rw [get_placed, Option.map_eq_none_iff] at hnone
      rw [get_placed, at?_concat, hnone, if_pos hnumber]
      rfl
    · rfl
  · rw [if_neg fun hall => hnumber hall.1]
    split
    · rw [get_placed, get_placed, at?_concat, if_neg hnumber, Option.or_none]
    · rfl

end Offer

namespace Player

variable {ω : Type}

/-- The choices on offer are selected from accepted ones, which stand before the cursor in the order
in which they have been accepted. -/
structure Offers (p : Player ω) (os : List Offer) : Prop where
  slots : p.slots = Offer.placed (Offer.selected p.limit os)
  choices : ∀ o ∈ os, o.place < p.cursor ∧ ∃ st target, p.statement? o.place = some st ∧
    st.choice? = some (o.number, o.text, target)
  ordered : os.Pairwise fun a b => a.place < b.place

theorem offers_nil {p : Player ω} (hslots : p.slots = .empty) : p.Offers [] where
  slots := by
    rw [hslots, Offer.selected_nil]
    refine Vector.ext fun k hk => ?_
    exact (get_empty ⟨k, hk⟩).trans (Offer.get_placed [] ⟨k, hk⟩).symm
  choices := by simp
  ordered := .nil

/-- What is on offer stays on offer while the player moves forward in its label. -/
theorem Offers.of_forward {p q : Player ω} {os : List Offer} (hp : p.Offers os)
    (hslots : q.slots = p.slots) (hlimit : q.limit = p.limit) (hscript : q.script = p.script)
    (hlabel : q.label = p.label) (hcursor : p.cursor ≤ q.cursor) : q.Offers os where
  slots := by rw [hslots, hlimit, hp.slots]
  choices o ho := by
    obtain ⟨hlt, hchoice⟩ := hp.choices o ho
    rw [statement?_congr hscript hlabel]
    exact ⟨Nat.lt_of_lt_of_le hlt hcursor, hchoice⟩
  ordered := hp.ordered

/-- The choice at the cursor is one more that has been accepted. -/
theorem Offers.concat {p q : Player ω} {os : List Offer} {st : Statement} {number : Int32}
    {text target : String} (hp : p.Offers os) (hhere : p.here? = some st)
    (hchoice : st.choice? = some (number, text, target))
    (hslots : q.slots = p.slots.fill p.limit number p.cursor) (hlimit : q.limit = p.limit)
    (hscript : q.script = p.script) (hlabel : q.label = p.label)
    (hcursor : q.cursor = p.cursor + 1) : q.Offers (os ++ [⟨p.cursor, number, text⟩]) where
  slots := by
    rw [hslots, hlimit, hp.slots]
    exact Offer.fill_placed p.limit os ⟨p.cursor, number, text⟩
  choices o ho := by
    rw [statement?_congr hscript hlabel, hcursor]
    rcases List.mem_append.mp ho with ho | ho
    · obtain ⟨hlt, hold⟩ := hp.choices o ho
      exact ⟨Nat.lt_succ_of_lt hlt, hold⟩
    · obtain rfl := List.mem_singleton.mp ho
      exact ⟨Nat.lt_succ_self _, st, target, hhere, hchoice⟩
  ordered := by
    refine List.pairwise_append.mpr ⟨hp.ordered, List.pairwise_singleton _ _, fun a ha b hb => ?_⟩
    obtain rfl := List.mem_singleton.mp hb
    exact (hp.choices a ha).1

/-- The texts on offer are those of the selected choices, in the order of their numbers. -/
theorem Offers.choiceTexts {p : Player ω} {os : List Offer} (hp : p.Offers os) :
    p.choiceTexts = (Offer.inOrder (Offer.selected p.limit os)).map (·.text) := by
  rw [Player.choiceTexts, Player.choices, hp.slots, Offer.toList_placed, List.map_map,
    List.filterMap_map, Offer.inOrder, List.map_filterMap]
  refine List.filterMap_congr fun k _ => ?_
  cases hat : Offer.at? (Offer.selected p.limit os) k with
  | none => simp [hat]
  | some o =>
      obtain ⟨-, st, target, hst, hchoice⟩ :=
        hp.choices o (Offer.of_mem_selected (Offer.of_at? hat).1)
      simp [hat, hst, hchoice]

/-- Choices are on offer if any have been selected. -/
theorem Offers.hasChoices_iff {p : Player ω} {os : List Offer} (hp : p.Offers os) :
    p.hasChoices = true ↔ Offer.selected p.limit os ≠ [] := by
  have hlength : p.offered.length = (Offer.selected p.limit os).length := by
    rw [offered_length, hp.slots, Offer.countP_placed (Offer.apart_selected ..)]
  rw [← List.length_pos_iff, ← hlength, offered, List.length_filterMap_eq_countP,
    List.countP_pos_iff, Player.hasChoices, List.any_eq_true]
  rfl

end Player

namespace Scene

variable {σ ω : Type} (h : Host σ ω)

/-! ### Histories -/

/-- The scenes in which an activation visits a place, up to its end. -/
inductive Trail : Nat → Scene σ ω → List (Scene σ ω) → Scene σ ω → Prop
  | halt {n s s'} (hvisit : Visit h s (.halt s')) : Trail n s [s] s'
  | on {n s s₁ visited s'} (hvisit : Visit h s (.on s₁)) (hrest : Trail n s₁ visited s') :
      Trail n s (s :: visited) s'
  | missed {n s s₁ s' name} (hvisit : Visit h s (.jump name s₁))
      (henter : s₁.enter name = (false, s')) : Trail n s [s] s'
  | spent {s s₁ s₂ name} (hvisit : Visit h s (.jump name s₁))
      (henter : s₁.enter name = (true, s₂)) :
      Trail 1 s [s] ((s₂.inPhase .running).remark (.jumpsSpent name))
  | jump {n s s₁ s₂ visited s' name} (hvisit : Visit h s (.jump name s₁))
      (henter : s₁.enter name = (true, s₂))
      (hrest : Trail (n + 1) (s₂.inPhase .running) visited s') :
      Trail (n + 2) s (s :: visited) s'

/-- The scenes in which a run of operations visits a place. -/
inductive Journey : Scene σ ω → List Operation → List (Scene σ ω) → Prop
  | nil {s} : Journey s [] []
  /-- An operation that runs nothing. -/
  | rests {s op ops visited} (hlead : (s.lead h op).1 = false)
      (hrest : Journey (s.apply h op) ops visited) : Journey s (op :: ops) visited
  /-- An operation that runs statements. -/
  | runs {s op ops n visited visited'} (hlead : (s.lead h op).1 = true)
      (htrail : Trail h n ((s.lead h op).2.inPhase .running) visited (s.apply h op))
      (hrest : Journey (s.apply h op) ops visited') : Journey s (op :: ops) (visited ++ visited')

/-- What has been accepted in the current label and not been left behind by a statement that has
run, when the place of a scene has been visited too. -/
def gather (os : List Offer) (s : Scene σ ω) : List Offer :=
  let os := if s.player.cursor = 0 then [] else os
  match s.player.here? with
  | none => os
  | some st =>
    if (s.judge h st).1 then
      match st.choice? with
      | some (number, text, _) => os ++ [⟨s.player.cursor, number, text⟩]
      | none => if s.player.hasChoices then os else []
    else os

/-- The choices accepted since the player has come to its label or has last run a statement there
that is no choice, in the order in which they have been accepted. -/
def accepted (visited : List (Scene σ ω)) : List Offer := visited.foldl (gather h) []

variable {h}

theorem trail_of_activation {n : Nat} {s s' : Scene σ ω} (hactivation : Activation h n s s') :
    ∃ visited, Trail h n s visited s' := by
  induction hactivation with
  | halt hvisit => exact ⟨_, .halt hvisit⟩
  | on hvisit _ ih => exact ih.imp' (_ :: ·) fun _ htrail => .on hvisit htrail
  | missed hvisit henter => exact ⟨_, .missed hvisit henter⟩
  | spent hvisit henter => exact ⟨_, .spent hvisit henter⟩
  | jump hvisit henter _ ih => exact ih.imp' (_ :: ·) fun _ htrail => .jump hvisit henter htrail

/-- Every run has a history. -/
theorem exists_journey (h : Host σ ω) (s : Scene σ ω) (ops : List Operation) :
    ∃ visited, Journey h s ops visited := by
  induction ops generalizing s with
  | nil => exact ⟨[], .nil⟩
  | cons op ops ih =>
      obtain ⟨visited', hrest⟩ := ih (s.apply h op)
      cases hlead : (s.lead h op).1 with
      | false => exact ⟨visited', .rests hlead hrest⟩
      | true =>
          have happly : s.apply h op = (s.lead h op).2.advance h := by
            rw [apply_eq_proceed, proceed, if_pos hlead]
          obtain ⟨visited, htrail⟩ :=
            trail_of_activation (activation_advance (h := h) (s.lead h op).2)
          rw [← happly] at htrail
          exact ⟨visited ++ visited', .runs hlead htrail hrest⟩

/-! ### What visits gather -/

/-- The choices on offer at a place are selected from those accepted in its label. -/
def Standing (s : Scene σ ω) (os : List Offer) : Prop :=
  s.player.Offers (if s.player.cursor = 0 then [] else os)

theorem standing_inPhase {s : Scene σ ω} {os : List Offer} (hs : s.Standing os) (phase : Phase) :
    (s.inPhase phase).Standing os :=
  Player.Offers.of_forward hs rfl rfl rfl rfl (Nat.le_refl _)

theorem standing_of_start {s : Scene σ ω} (hcursor : s.player.cursor = 0)
    (hslots : s.player.slots = .empty) (os : List Offer) : s.Standing os := by
  rw [Standing, if_pos hcursor]
  exact Player.offers_nil hslots

/-- Behind a statement, what has been accepted is what is on offer. -/
theorem standing_of_behind {s : Scene σ ω} {os : List Offer} (hcursor : 0 < s.player.cursor)
    (hs : s.player.Offers os) : s.Standing os := by
  rwa [Standing, if_neg (Nat.ne_of_gt hcursor)]

/-- Judging keeps what is on offer. -/
theorem offers_judge {s s₁ : Scene σ ω} {st : Statement} {accepted : Bool} {os : List Offer}
    (hs : s.player.Offers os) (hjudge : s.judge h st = (accepted, s₁)) : s₁.player.Offers os := by
  have hplayer := player_of_judge hjudge
  rw [hplayer]
  exact hs.of_forward rfl rfl rfl rfl (Nat.le_refl _)

theorem gather_rejected {s s₁ : Scene σ ω} {st : Statement} (hhere : s.player.here? = some st)
    (hjudge : s.judge h st = (false, s₁)) (os : List Offer) :
    gather h os s = if s.player.cursor = 0 then [] else os := by
  simp [gather, hhere, hjudge]

theorem gather_offered {s s₁ : Scene σ ω} {st : Statement} {number : Int32} {text target : String}
    (hhere : s.player.here? = some st) (hjudge : s.judge h st = (true, s₁))
    (hchoice : st.choice? = some (number, text, target)) (os : List Offer) :
    gather h os s =
      (if s.player.cursor = 0 then [] else os) ++ [⟨s.player.cursor, number, text⟩] := by
  simp [gather, hhere, hjudge, hchoice]

theorem gather_other {s s₁ : Scene σ ω} {st : Statement} (hhere : s.player.here? = some st)
    (hjudge : s.judge h st = (true, s₁)) (hchoice : st.choice? = none) (os : List Offer) :
    gather h os s =
      if s₁.player.hasChoices then (if s.player.cursor = 0 then [] else os) else [] := by
  have hopen : s₁.player.hasChoices = s.player.hasChoices := by
    have hplayer := player_of_judge hjudge
    rw [hplayer]
    exact Player.hasChoices_congr rfl
  simp [gather, hhere, hjudge, hchoice, hopen]

theorem gather_end {s : Scene σ ω} {i : Nat} (hend : s.player.AtEnd i) (os : List Offer) :
    gather h os s = if s.player.cursor = 0 then [] else os := by
  obtain ⟨hlabel, l, hl, hle⟩ := hend
  have hhere : s.player.here? = none := by
    rw [Player.here?, Player.statement?_of_label? ((Player.label?_of_label hlabel).trans hl),
      List.getElem?_eq_none hle]
  simp [gather, hhere]

/-- A visit that leads on gathers what is on offer behind it. -/
theorem standing_of_on {s s' : Scene σ ω} {os : List Offer} (hs : s.Standing os)
    (hvisit : Visit h s (.on s')) : s'.Standing (gather h os s) := by
  cases hvisit with
  | @rejected st s₁ hhere hjudge =>
      rw [gather_rejected hhere hjudge]
      refine standing_of_behind (Nat.succ_pos _) ?_
      exact (offers_judge hs hjudge).of_forward rfl rfl rfl rfl (Nat.le_succ _)
  | @offered st s₁ number text target hhere hjudge hchoice =>
      have hcursor : s₁.player.cursor = s.player.cursor := by rw [player_of_judge hjudge]
      obtain ⟨slots, hplayer⟩ := player_offer s₁ number
      have hoffers : (s₁.offer number).step.player.Offers _ :=
        (offers_judge hs hjudge).concat ((here?_judge hjudge).trans hhere) hchoice
          (slots_offer s₁ number) (by rw [player_step, hplayer]) (by rw [player_step, hplayer])
          (by rw [player_step, hplayer]) (by rw [player_step, hplayer])
      rw [hcursor] at hoffers
      rw [gather_offered hhere hjudge hchoice]
      exact standing_of_behind (Nat.succ_pos _) hoffers
  | @ran st s₁ s₂ hhere hjudge hchoice hopen hrun =>
      have hplayer := player_of_run hrun
      rw [gather_other hhere hjudge hchoice, hopen, if_neg Bool.false_ne_true]
      refine standing_of_behind (Nat.succ_pos _) (Player.offers_nil ?_)
      rw [player_step, hplayer]
      exact (Player.obey_slots ..).trans (Player.eq_empty_of_hasChoices hopen)
  | through => exact standing_of_start rfl rfl _

/-- What is on offer between two operations is selected from what has been accepted; a player that
is about to run statements without having waited is at the start of its label. -/
structure Settled (s : Scene σ ω) (os : List Offer) : Prop where
  offers : s.player.phase = .choosing ∨ s.player.phase = .waiting → s.player.Offers os
  start : s.player.phase = .entered ∨ s.player.phase = .running →
    s.player.cursor = 0 ∧ s.player.slots = .empty

theorem settled_of_idle {s : Scene σ ω} (hphase : s.player.phase = .idle) (os : List Offer) :
    s.Settled os := by
  constructor <;> simp [hphase]

theorem settled_finish (s : Scene σ ω) (os : List Offer) : s.finish.Settled os :=
  settled_of_idle (by rw [player_finish]) os

/-- The player offers choices behind what it has gathered. -/
theorem settled_choosing {s : Scene σ ω} {os : List Offer} (hs : s.player.Offers os) :
    (s.inPhase .choosing).Settled os where
  offers _ := hs.of_forward rfl rfl rfl rfl (Nat.le_refl _)
  start := by simp

/-- A visit that ends an activation gathers what is on offer then. -/
theorem settled_of_halt {s s' : Scene σ ω} {os : List Offer} (hs : s.Standing os)
    (hvisit : Visit h s (.halt s')) : s'.Settled (gather h os s) := by
  cases hvisit with
  | nowhere | ended => exact settled_finish _ _
  | held hhere hjudge hchoice hopen =>
      rw [gather_other hhere hjudge hchoice, if_pos hopen]
      exact settled_choosing (offers_judge hs hjudge)
  | @awaited st s₁ s₂ handle hhere hjudge hchoice hopen hrun =>
      rw [gather_other hhere hjudge hchoice, hopen, if_neg Bool.false_ne_true]
      refine ⟨fun _ => Player.offers_nil ?_, by simp⟩
      have hplayer := player_of_run hrun
      rw [player_await, hplayer]
      exact (Player.obey_slots ..).trans (Player.eq_empty_of_hasChoices hopen)
  | choosing hend =>
      rw [gather_end hend]
      exact settled_choosing hs

/-- An activation gathers what is on offer when it is over. -/
theorem settled_of_trail {n : Nat} {s s' : Scene σ ω} {visited : List (Scene σ ω)}
    {os : List Offer} (htrail : Trail h n s visited s') (hs : s.Standing os) :
    s'.Settled (visited.foldl (gather h) os) := by
  induction htrail generalizing os with
  | halt hvisit => exact settled_of_halt hs hvisit
  | on hvisit _ ih => exact ih (standing_of_on hs hvisit)
  | missed hvisit henter =>
      obtain ⟨-, rfl⟩ := of_enter_false henter
      exact settled_finish _ _
  | spent hvisit henter =>
      obtain ⟨i, -, rfl⟩ := of_enter_true henter
      exact ⟨by simp, fun _ => ⟨rfl, rfl⟩⟩
  | jump hvisit henter _ ih =>
      obtain ⟨i, -, rfl⟩ := of_enter_true henter
      exact ih (standing_of_start rfl rfl _)

/-! ### What operations gather -/

/-- A lead comes to a label or moves forward, if an activation follows it; otherwise it leaves what
is on offer alone or drops it. -/
def Led (os : List Offer) (lead : Bool × Scene σ ω) : Prop :=
  if lead.1 then lead.2.Standing os else lead.2.Settled os

theorem led_enter (s : Scene σ ω) (name : String) (os : List Offer) : Led os (s.enter name) := by
  rw [enter]
  split
  · exact standing_of_start rfl rfl os
  · exact settled_finish _ os

theorem settled_congr {s s' : Scene σ ω} {os : List Offer} (hs : s.Settled os)
    (hslots : s'.player.slots = s.player.slots) (hlimit : s'.player.limit = s.player.limit)
    (hscript : s'.player.script = s.player.script) (hlabel : s'.player.label = s.player.label)
    (hcursor : s'.player.cursor = s.player.cursor) (hphase : s'.player.phase = s.player.phase) :
    s'.Settled os where
  offers hopen := by
    rw [hphase] at hopen
    exact (hs.offers hopen).of_forward hslots hlimit hscript hlabel (Nat.le_of_eq hcursor.symm)
  start hrun := by
    rw [hphase] at hrun
    rw [hslots, hcursor]
    exact hs.start hrun

theorem led_opening (s : Scene σ ω) (actor dialog label source : String) (os : List Offer) :
    Led os (s.opening actor dialog label source) := by
  rw [opening]
  split
  · exact settled_of_idle (by rw [player_reading, Player.dismissed]) os
  · exact led_enter _ _ os

theorem led_pick {s : Scene σ ω} {os : List Offer} (hs : s.Settled os) (choice : Nat) :
    Led os (s.pick h choice) := by
  rw [pick]
  split
  · exact settled_congr hs rfl rfl rfl rfl rfl rfl
  · split
    · exact settled_congr hs rfl rfl rfl rfl rfl rfl
    · split
      · exact hs
      · split
        · exact ⟨by simp [echo], by simp [echo]⟩
        · exact led_enter _ _ os

/-- A player that waits moves forward when what it waits for is over, or comes to a label. -/
theorem led_resume {s : Scene σ ω} {os : List Offer} (hs : s.Settled os) (hwaits : s.Waits) :
    Led os (s.resume h) := by
  rw [resume]
  rcases hpoll : s.pollWait h with ⟨_ | _, s'⟩ <;> have hplayer := player_pollWait hpoll <;>
    dsimp only at hplayer
  · exact settled_congr hs (by rw [hplayer]) (by rw [hplayer]) (by rw [hplayer]) (by rw [hplayer])
      (by rw [hplayer]) (by rw [hplayer])
  · dsimp only
    rw [goOn, show s'.player.phase = s.player.phase by rw [hplayer]]
    rcases hwaits with hphase | hphase
    · rw [hphase]
      refine standing_of_behind (Nat.succ_pos _)
        ((hs.offers (.inr hphase)).of_forward ?_ ?_ ?_ ?_ ?_)
      · rw [player_step, hplayer]
      · rw [player_step, hplayer]
      · rw [player_step, hplayer]
      · rw [player_step, hplayer]
      · rw [player_step, hplayer]
        exact Nat.le_succ _
    · rw [hphase]
      exact led_enter _ _ os

theorem led_awaken {s : Scene σ ω} {os : List Offer} (hs : s.Settled os) :
    Led os (s.awaken h) := by
  by_cases hwaits : s.Waits
  · rw [awaken_of_waits h hwaits]
    exact led_resume hs hwaits
  · rw [awaken]
    split
    · exact hs
    · exact hs
    · obtain ⟨hcursor, hslots⟩ := hs.start (.inl ‹_›)
      exact standing_of_start hcursor hslots os
    · obtain ⟨hcursor, hslots⟩ := hs.start (.inr ‹_›)
      exact standing_of_start hcursor hslots os
    · exact absurd (.inl ‹_›) hwaits
    · exact absurd (.inr ‹_›) hwaits

/-- The lead of an operation comes to a label, moves forward, or leaves what is on offer alone. -/
theorem led_lead {s : Scene σ ω} {os : List Offer} (hs : s.Settled os) (op : Operation) :
    Led os (s.lead h op) := by
  cases op with
  | start actor dialog label =>
      rw [lead]
      split
      · exact settled_of_idle (by rw [player_reset, Player.dismissed]) os
      · exact led_opening s actor dialog label _ os
  | startSource actor dialog label source => exact led_opening s actor dialog label source os
  | update => exact led_awaken hs
  | choose choice => exact led_pick hs choice
  | goTo label => exact led_enter s label os
  | finish => exact settled_finish s os
  | setLog log => exact settled_congr hs rfl rfl rfl rfl rfl rfl

/-- A run gathers what is on offer when it is over. -/
theorem settled_of_journey {s : Scene σ ω} {ops : List Operation} {visited : List (Scene σ ω)}
    {os : List Offer} (hjourney : Journey h s ops visited) (hs : s.Settled os) :
    (s.after h ops).Settled (visited.foldl (gather h) os) := by
  induction hjourney generalizing os with
  | nil => exact hs
  | @rests s op ops visited hlead _ ih =>
      have hled := led_lead (h := h) hs op
      rw [Led, hlead, if_neg Bool.false_ne_true] at hled
      refine ih ?_
      rwa [apply_eq_proceed, proceed, if_neg (Bool.eq_false_iff.mp hlead)]
  | @runs s op ops n visited visited' hlead htrail _ ih =>
      have hled := led_lead (h := h) hs op
      rw [Led, hlead, if_pos rfl] at hled
      rw [after_cons, List.foldl_append]
      exact ih (settled_of_trail htrail (standing_inPhase hled .running))

/-- Which choices are on offer. Every run has a history; if choices are on offer after it, they are
selected from those accepted since the player has come to its label or has last run a statement
there that is no choice: of those with a place the first of each number, and of these as many as the
limit allows. There is one at least, each stands in the place of its number, and the texts are
listed in the order of the numbers. -/
theorem choices_of_journey (h : Host σ ω) (loader : Loader) (config : Config) (log : Log)
    (host : σ) (ops : List Operation) :
    let s : Scene σ ω := (fresh loader config log host).after h ops
    (∃ visited, Journey h (fresh loader config log host) ops visited) ∧
      ∀ visited, Journey h (fresh loader config log host) ops visited →
        s.player.phase = .choosing →
          let os := accepted h visited
          let shown := Offer.selected s.player.limit os
          (∀ o ∈ os, ∃ st target, s.player.statement? o.place = some st ∧
            st.choice? = some (o.number, o.text, target)) ∧
          (os.Pairwise fun a b => a.place < b.place) ∧
          shown ≠ [] ∧
          (∀ k : Fin maxChoices, s.player.slots.get k =
            (shown.find? fun o => o.number.toInt = (k : Int) + 1).map (·.place)) ∧
          (∃ ordered : List Offer, ordered.Perm shown ∧
            (ordered.Pairwise fun a b => a.number.toInt < b.number.toInt) ∧
            s.player.choiceTexts = ordered.map (·.text)) ∧
          s.player.choiceTexts.length = s.player.slots.countP Option.isSome := by
  intro s
  refine ⟨exists_journey h _ ops, ?_⟩
  intro visited hjourney hphase os shown
  have hsettled : s.Settled os := settled_of_journey hjourney (settled_of_idle rfl [])
  have hoffers := hsettled.offers (.inl hphase)
  have happart : Offer.Apart shown := Offer.apart_selected s.player.limit os
  have hopen : s.player.hasChoices = true :=
    (consistent_after (consistent_fresh loader config log host) ops).open_of_choosing (.inl hphase)
  refine ⟨fun o ho => (hoffers.choices o ho).2, hoffers.ordered, hoffers.hasChoices_iff.mp hopen,
    fun k => ?_, ⟨Offer.inOrder shown, Offer.perm_inOrder happart, Offer.pairwise_inOrder shown,
      hoffers.choiceTexts⟩, ?_⟩
  · rw [hoffers.slots]
    exact Offer.get_placed shown k
  · rw [hoffers.choiceTexts, List.length_map, (Offer.perm_inOrder happart).length_eq,
      hoffers.slots, Offer.countP_placed happart]

/-- With two choices allowed, one of a number without a place, one of a number that has come and one
too many are left out, and the higher number comes last. -/
theorem choices_of_limit :
    let source :=
      ":s\nlimit 2\n3 \"a\" -> s\n3 \"b\" -> s\n0 \"c\" -> s\n1 \"d\" -> s\n2 \"e\" -> s"
    let first : Scene Unit Unit := fresh (fun _ => .ok "") {} {} ()
    let ops : List Operation := [.startSource "a" "d" "s" source]
    let s := first.after Host.instant ops
    s.player.phase = .choosing ∧ s.player.choiceTexts = ["d", "a"] ∧
      s.player.slots.toList.take 3 = [some 4, none, some 1] ∧
      ∃ visited, Journey Host.instant first ops visited ∧
        Offer.selected s.player.limit (accepted Host.instant visited) ≠ [] := by
  intro source first ops s
  have hphase : s.player.phase = .choosing := by decide +kernel
  obtain ⟨⟨visited, hjourney⟩, hshown⟩ :=
    choices_of_journey Host.instant (fun _ => .ok "") {} {} () ops
  obtain ⟨-, -, hsome, -⟩ := hshown visited hjourney hphase
  exact ⟨hphase, by decide +kernel, by decide +kernel, visited, hjourney, hsome⟩

end Scene

end DialogScript
