import DialogScript.Proofs.Player.Exchange
import DialogScript.Proofs.Player.View
import Mathlib.Data.List.Nodup

/-!
# What is polled, and when

Only an update polls, once at most, and it polls what has been begun last, unless that is over or
has been left by the end of the session, a start or going to a label. Without a dialog nothing is
said to the host.

Two delays may have the same handle. So that each is called by a name of its own, the handles are
numbered in the order in which they come. The player sees no difference: the calls with numbered
handles are those without, seen through the view that forgets the numbers.

At each time one thing may be polled: what has been begun last, if it is not over. Calls are made
in turn if nothing else is ever polled.

## Main definitions

* `Host.named`, `Host.unnamed`: the host with numbered handles, and the view that forgets the
  numbers
* `Call.watch`, `InTurn`: what may be polled, and calls that poll nothing else
* `Scene.Tracks`: the player waits for nothing but what may be polled
* `Scene.PollsInTurn`: the wait protocol

## Main results

* `Host.names_of_exchange`: handles are numbered in order
* `Scene.tracks_apply`: operations poll nothing but what may be polled
* `Scene.pollsInTurn_after_fresh`: every run keeps to the wait protocol
-/

namespace DialogScript

variable {σ ω : Type}

/-- The handle of what a call begins. -/
def Call.begun? : Call ω → Option ω
  | delay _ handle => some handle
  | _ => none

/-- What may be polled after a call. -/
def Call.watch (current : Option ω) : Call ω → Option ω
  | delay _ handle => some handle
  | poll _ true => none
  | _ => current

/-- Nothing is polled but what may be. -/
def InTurn : Option ω → List (Call ω) → Prop
  | _, [] => True
  | current, c :: calls =>
    (∀ handle ready, c = .poll handle ready → current = some handle) ∧
      InTurn (c.watch current) calls

/-! ### Calls in turn -/

theorem inTurn_append {current : Option ω} {calls calls' : List (Call ω)} :
    InTurn current (calls ++ calls') ↔
      InTurn current calls ∧ InTurn (calls.foldl Call.watch current) calls' := by
  induction calls generalizing current with
  | nil => simp [InTurn]
  | cons c calls ih => simp only [List.cons_append, InTurn, ih, List.foldl_cons, and_assoc]

theorem inTurn_of_unpolled {calls : List (Call ω)} (hcalls : ∀ c ∈ calls, c.isPoll = false)
    (current : Option ω) : InTurn current calls := by
  induction calls generalizing current with
  | nil => trivial
  | cons c calls ih =>
      rw [List.forall_mem_cons] at hcalls
      refine ⟨?_, ih hcalls.2 _⟩
      rintro handle ready rfl
      cases hcalls.1

/-- What may be polled is polled in turn. -/
theorem inTurn_polled {calls : List (Call ω)} {current : Option ω} {handle : ω}
    (hturn : InTurn current calls) (hwatch : calls.foldl Call.watch current = some handle)
    (ready : Bool) : InTurn current (calls ++ [.poll handle ready]) := by
  refine inTurn_append.mpr ⟨hturn, ?_, trivial⟩
  rintro handle' ready' heq
  obtain ⟨rfl, -⟩ := Call.poll.inj heq
  exact hwatch

theorem watch_of_begun {calls : List (Call ω)} {handle : ω} (hbegun : Begun calls handle)
    (current : Option ω) : calls.foldl Call.watch current = some handle := by
  obtain ⟨before, d, rfl⟩ := hbegun
  rw [List.foldl_append]
  rfl

theorem begun?_of_watch {c : Call ω} {current : Option ω} {handle : ω}
    (hwatch : c.watch current = some handle) : c.begun?.or current = some handle := by
  cases c with
  | delay | effect | code | scope => exact hwatch
  | poll handle' ready =>
      cases ready with
      | false => exact hwatch
      | true => cases hwatch

/-- What may be polled has been begun last, or it could be polled at first. -/
theorem getLast?_of_watch {calls : List (Call ω)} {current : Option ω} {handle : ω}
    (hwatch : calls.foldl Call.watch current = some handle) :
    (calls.filterMap Call.begun?).getLast?.or current = some handle := by
  induction calls generalizing current with
  | nil => exact hwatch
  | cons c calls ih =>
      have hrest := ih hwatch
      cases hlast : (calls.filterMap Call.begun?).getLast? with
      | none =>
          rw [hlast, Option.none_or] at hrest
          have hhead := begun?_of_watch hrest
          rw [List.filterMap_cons, List.getLast?_eq_none_iff.mp hlast]
          cases hbegun : c.begun? <;> rw [hbegun] at hhead <;> exact hhead
      | some handle' =>
          rw [hlast] at hrest
          rw [List.filterMap_cons]
          cases c.begun? with
          | none => rwa [hlast]
          | some handle'' => rwa [List.getLast?_cons, hlast]

/-- What is polled could be polled at first, or it has been begun. -/
theorem mem_begun_of_inTurn {calls : List (Call ω)} {current : Option ω} {handle : ω}
    {ready : Bool} (hturn : InTurn current calls) (hpoll : .poll handle ready ∈ calls) :
    current = some handle ∨ handle ∈ calls.filterMap Call.begun? := by
  obtain ⟨before, rest, rfl⟩ := List.append_of_mem hpoll
  obtain ⟨-, hhere, -⟩ := inTurn_append.mp hturn
  have hlast := getLast?_of_watch (hhere handle ready rfl)
  rw [List.filterMap_append, List.mem_append]
  cases hbegun : (before.filterMap Call.begun?).getLast? with
  | none => exact .inl (by rwa [hbegun] at hlast)
  | some handle' =>
      rw [hbegun] at hlast
      obtain rfl := Option.some.inj hlast
      exact .inr (.inl (List.mem_of_getLast? hbegun))

theorem getLast?_of_inTurn {before rest : List (Call ω)} {handle : ω} {ready : Bool}
    (hturn : InTurn none (before ++ .poll handle ready :: rest)) :
    (before.filterMap Call.begun?).getLast? = some handle := by
  obtain ⟨-, hhere, -⟩ := inTurn_append.mp hturn
  have hlast := getLast?_of_watch (hhere handle ready rfl)
  rwa [Option.or_none] at hlast

/-- What is over has to be begun again before it can be polled. -/
theorem not_mem_of_over {before rest : List (Call ω)} {handle : ω}
    (hturn : InTurn none (before ++ .poll handle true :: rest))
    (hnodup : ((before ++ .poll handle true :: rest).filterMap Call.begun?).Nodup) (ready : Bool) :
    .poll handle ready ∉ rest := by
  intro hagain
  obtain ⟨-, -, hrest⟩ := inTurn_append.mp hturn
  have hbefore := List.mem_of_getLast? (getLast?_of_inTurn hturn)
  have hbehind : handle ∈ rest.filterMap Call.begun? := by
    rcases mem_begun_of_inTurn hrest hagain with hcurrent | hbegun
    · cases hcurrent
    · exact hbegun
  rw [List.filterMap_append] at hnodup
  exact List.disjoint_of_nodup_append hnodup hbefore hbehind

/-! ### Numbered handles -/

namespace Host

/-- The host with the number of each handle beside it, in the order in which they come. -/
def named (h : Host σ ω) : Host (Nat × σ) (Nat × ω) where
  perform e x := (x.1, h.perform e x.2)
  begin d x := ((x.1, (h.begin d x.2).1), x.1 + 1, (h.begin d x.2).2)
  poll handle x := ((h.poll handle.2 x.2).1, x.1, (h.poll handle.2 x.2).2)
  holds text x := ((h.holds text x.2).1, x.1, (h.holds text x.2).2)
  admits s log site x := ((h.admits s log site x.2).1, x.1, (h.admits s log site x.2).2)

/-- The view that forgets the numbers of handles. -/
def unnamed (h : Host σ ω) : h.named.View h where
  state := Prod.snd
  handle := Prod.snd
  polls := true
  jumps := true
  perform _ _ := rfl
  begin _ _ := rfl
  holds _ _ := rfl
  admits _ _ _ _ := rfl

theorem keepsPolls_unnamed (h : Host σ ω) : h.unnamed.KeepsPolls := ⟨rfl, fun _ _ => rfl⟩

/-- A call takes the next number if it begins something, and no number otherwise. -/
theorem names_of_takes {h : Host σ ω} {x y : Nat × σ} {c : Call (Nat × ω)}
    (htakes : h.named.Takes x c y) :
    c.begun?.toList.map Prod.fst = List.range' x.1 c.begun?.toList.length ∧
      y.1 = x.1 + c.begun?.toList.length := by
  cases c with
  | effect e =>
      obtain rfl := htakes
      exact ⟨rfl, rfl⟩
  | delay d handle =>
      obtain ⟨rfl, rfl⟩ := Prod.mk.inj htakes
      exact ⟨rfl, rfl⟩
  | poll | code =>
      obtain ⟨-, rfl⟩ := Prod.mk.inj htakes
      exact ⟨rfl, rfl⟩
  | scope =>
      obtain ⟨log, htakes⟩ := htakes
      obtain ⟨-, rfl⟩ := Prod.mk.inj htakes
      exact ⟨rfl, rfl⟩

/-- Handles are numbered in the order in which they come. -/
theorem names_of_exchange {h : Host σ ω} {x y : Nat × σ} {calls : List (Call (Nat × ω))}
    (hexchange : h.named.Exchange x calls y) :
    (calls.filterMap Call.begun?).map Prod.fst =
        List.range' x.1 (calls.filterMap Call.begun?).length ∧
      y.1 = x.1 + (calls.filterMap Call.begun?).length := by
  induction hexchange with
  | nil => exact ⟨rfl, rfl⟩
  | @cons x y z c calls htakes _ ih =>
      obtain ⟨hnames, hcount⟩ := names_of_takes htakes
      obtain ⟨hnames', hcount'⟩ := ih
      have hbegun : (c :: calls).filterMap Call.begun? =
          c.begun?.toList ++ calls.filterMap Call.begun? := by
        rw [List.filterMap_cons]
        cases c.begun? <;> rfl
      rw [hbegun, List.map_append, List.length_append, hnames, hnames', hcount', hcount]
      exact ⟨List.range'_append_1, Nat.add_assoc _ _ _⟩

end Host

namespace Scene

variable {h : Host σ ω}

/-- What has been begun so far. -/
def begun (s : Scene σ ω) : List ω := s.calls.filterMap Call.begun?

/-- The calls that a run adds. -/
def callsDuring (h : Host σ ω) (s : Scene σ ω) (ops : List Operation) : List (Call ω) :=
  (s.after h ops).calls.drop s.calls.length

/-- The calls since a scene are in turn, and the player waits for nothing but what may be polled
next. -/
def Tracks (s₀ s : Scene σ ω) : Prop :=
  ∃ calls, s.calls = s₀.calls ++ calls ∧ InTurn none calls ∧
    (s.Waits → ∀ handle, s.player.wait = some handle →
      calls.foldl Call.watch none = some handle)

theorem tracks_refl {s : Scene σ ω} (hs : ¬s.Waits) : Tracks s s :=
  ⟨[], (List.append_nil _).symm, trivial, fun hwaits => absurd hwaits hs⟩

/-- What follows calls in turn without polling is in turn. -/
theorem Tracks.begins {s₀ s₁ s' : Scene σ ω} {calls : List (Call ω)}
    (hcalls : s₁.calls = s₀.calls ++ calls) (hturn : InTurn none calls)
    (hbegins : Begins h s₁ s') : Tracks s₀ s' := by
  obtain ⟨calls', hcalls', hspeech, hbegun⟩ := hbegins
  refine ⟨calls ++ calls', ?_, ?_, fun hwaits handle hwait => ?_⟩
  · rw [hcalls', hcalls, List.append_assoc]
  · exact inTurn_append.mpr ⟨hturn, inTurn_of_unpolled hspeech.unpolled _⟩
  · obtain ⟨handle', hwait', hbegun⟩ := hbegun hwaits
    obtain rfl := Option.some.inj (hwait.symm.trans hwait')
    rw [List.foldl_append]
    exact watch_of_begun hbegun _

/-- Operations poll nothing but what may be polled. -/
theorem tracks_apply {s₀ s : Scene σ ω} (hs : Tracks s₀ s) (op : Operation) :
    Tracks s₀ (s.apply h op) := by
  obtain ⟨calls, hcalls, hturn, hcurrent⟩ := hs
  have hsaying := saying_apply h s op
  generalize s.apply h op = s' at hsaying
  cases hsaying with
  | rests _ hsilent hphase hwait =>
      refine ⟨calls, hsilent.1.trans hcalls, hturn, fun hwaits handle hwait' => ?_⟩
      exact hcurrent ((waits_congr hphase).mp hwaits) handle (hwait.symm.trans hwait')
  | begins hbegins => exact .begins hcalls hturn hbegins
  | @pending handle _ hwaits hwait hcalls' _ hplayer =>
      have hturn' := inTurn_polled hturn (hcurrent hwaits handle hwait) false
      refine ⟨calls ++ [.poll handle false], ?_, hturn', fun _ handle' hwait' => ?_⟩
      · rw [hcalls', hcalls, List.append_assoc]
      · rw [hplayer] at hwait'
        rw [List.foldl_append]
        exact hcurrent hwaits handle' hwait'
  | @ended handle s₁ _ hwaits hwait hcalls' _ hbegins =>
      have hturn' := inTurn_polled hturn (hcurrent hwaits handle hwait) true
      exact .begins (by rw [hcalls', hcalls, List.append_assoc]) hturn' hbegins

/-- An operation that leaves what the player waits for begins anew. -/
theorem tracks_of_leaves (s : Scene σ ω) {op : Operation} (hop : op.leaves = true) :
    Tracks s (s.apply h op) := by
  have hsaying := saying_apply h s op
  generalize s.apply h op = s' at hsaying
  cases hsaying with
  | rests hstays => simp [hop] at hstays
  | begins hbegins => exact .begins (List.append_nil _).symm trivial hbegins
  | pending | ended => cases hop

theorem tracks_after {s₀ s : Scene σ ω} (hs : Tracks s₀ s) (ops : List Operation) :
    Tracks s₀ (s.after h ops) := after_induct (fun _ hs => tracks_apply hs _) hs

theorem callsDuring_of_append {s : Scene σ ω} {ops : List Operation} {calls : List (Call ω)}
    (hcalls : (s.after h ops).calls = s.calls ++ calls) : s.callsDuring h ops = calls := by
  rw [callsDuring, hcalls, List.drop_left]

/-- Only an update polls, and once at most. -/
theorem countP_isPoll_le (s : Scene σ ω) (op : Operation) :
    (s.callsDuring h [op]).countP Call.isPoll ≤ if op = .update then 1 else 0 := by
  have hnone {calls : List (Call ω)} (hcalls : ∀ c ∈ calls, c.isPoll = false) :
      calls.countP Call.isPoll = 0 := by
    rw [List.countP_eq_zero]
    intro c hc
    simp [hcalls c hc]
  have hsaying := saying_apply h s op
  have hduring {calls : List (Call ω)} (hcalls : (s.apply h op).calls = s.calls ++ calls) :
      s.callsDuring h [op] = calls := callsDuring_of_append hcalls
  generalize s.apply h op = s' at hsaying hduring
  cases hsaying with
  | rests _ hsilent =>
      rw [hduring (hsilent.1.trans (List.append_nil _).symm)]
      exact Nat.zero_le _
  | begins hbegins =>
      obtain ⟨calls, hcalls, hspeech, -⟩ := hbegins
      rw [hduring hcalls, hnone hspeech.unpolled]
      exact Nat.zero_le _
  | pending _ _ hcalls =>
      rw [hduring hcalls]
      exact Nat.le_refl 1
  | ended _ _ hcalls _ hbegins =>
      obtain ⟨calls, hcalls', hspeech, -⟩ := hbegins
      rw [hcalls, List.append_assoc] at hcalls'
      rw [hduring hcalls', List.countP_append, hnone hspeech.unpolled]
      exact Nat.le_refl 1

/-- Without a dialog, nothing is said to the host and the player stays as it is. -/
theorem silent_of_idle (h : Host σ ω) {s : Scene σ ω} (hs : s.player.phase = .idle) :
    s.update h = s ∧ ∀ choice,
      (s.choose h choice).player = s.player ∧ Silent s (s.choose h choice) := by
  refine ⟨by rw [update, hs], fun choice => ?_⟩
  have hchoose : s.choose h choice = s.remark (.pickIgnored choice s.player.phase) := by
    simp [choose, hs]
  rw [hchoose]
  exact ⟨rfl, silent_remark s _⟩

/-- The wait protocol of a scene whose handles are names. -/
structure PollsInTurn (h : Host σ ω) (s : Scene σ ω) : Prop where
  /-- Only an update polls, and once at most. -/
  once : ∀ op, (s.callsDuring h [op]).countP Call.isPoll ≤ if op = .update then 1 else 0
  /-- What is polled has been begun last. -/
  latest : ∀ {before handle ready rest}, s.calls = before ++ .poll handle ready :: rest →
    (before.filterMap Call.begun?).getLast? = some handle
  /-- What is over is not polled again. -/
  ended : ∀ {before handle ready rest}, s.calls = before ++ .poll handle true :: rest →
    .poll handle ready ∉ rest
  /-- What has been begun before it is left is not polled from then on. -/
  left : ∀ {op ops handle ready}, op.leaves = true →
    .poll handle ready ∈ s.callsDuring h (op :: ops) → handle ∉ s.begun
  /-- Without a dialog, updates and choices say nothing to the host and change no player. -/
  idle : s.player.phase = .idle → s.update h = s ∧
    ∀ choice, (s.choose h choice).player = s.player ∧ Silent s (s.choose h choice)

/-- The handles of a run are numbered in order. -/
theorem names_after_fresh (h : Host σ ω) (loader : Loader) (config : Config) (log : Log) (x : σ)
    (ops : List Operation) :
    let s := (fresh loader config log (0, x)).after h.named ops
    s.begun.map Prod.fst = List.range s.begun.length := by
  intro s
  obtain ⟨calls, hcalls, hexchange⟩ :=
    exchange_after h.named (fresh loader config log (0, x)) ops
  have hbegun : s.begun = calls.filterMap Call.begun? :=
    congrArg (List.filterMap Call.begun?) (hcalls.trans (List.nil_append _))
  rw [hbegun, List.range_eq_range']
  exact (Host.names_of_exchange hexchange).1

theorem nodup_begun (h : Host σ ω) (loader : Loader) (config : Config) (log : Log) (x : σ)
    (ops : List Operation) : ((fresh loader config log (0, x)).after h.named ops).begun.Nodup := by
  refine List.Nodup.of_map Prod.fst ?_
  rw [names_after_fresh]
  exact List.nodup_range

/-- Every run keeps to the wait protocol, with handles named by the number of the call that began
them. Without the names it is the run of the same operations. -/
theorem pollsInTurn_after_fresh (h : Host σ ω) (loader : Loader) (config : Config) (log : Log)
    (x : σ) (ops : List Operation) :
    let s := (fresh loader config log (0, x)).after h.named ops
    h.unnamed.scene s = (fresh loader config log x).after h ops ∧
      s.begun.map Prod.fst = List.range s.begun.length ∧ s.PollsInTurn h.named := by
  intro s
  have hnodup := nodup_begun h loader config log x
  obtain ⟨calls, hcalls, hturn, -⟩ : Tracks (fresh loader config log (0, x)) s :=
    tracks_after (tracks_refl (not_waits_fresh loader config log (0, x))) ops
  obtain rfl : s.calls = calls := hcalls.trans (List.nil_append _)
  refine ⟨?_, names_after_fresh h loader config log x ops, ?_, ?_, ?_, ?_, ?_⟩
  · rw [← Host.View.after_scene rfl h.keepsPolls_unnamed, Host.View.scene_fresh]
    rfl
  · exact countP_isPoll_le s
  · intro before handle ready rest hsplit
    rw [hsplit] at hturn
    exact getLast?_of_inTurn hturn
  · intro before handle ready rest hsplit
    have hnames : (s.calls.filterMap Call.begun?).Nodup := hnodup ops
    rw [hsplit] at hturn hnames
    exact not_mem_of_over hturn hnames ready
  · intro op ops' handle ready hop hpoll hbegun
    obtain ⟨calls', hcalls', hturn', -⟩ : Tracks s (s.after h.named (op :: ops')) :=
      tracks_after (tracks_of_leaves s hop) ops'
    rw [callsDuring_of_append hcalls'] at hpoll
    have hnames : ((s.after h.named (op :: ops')).calls.filterMap Call.begun?).Nodup := by
      have hall := hnodup (ops ++ op :: ops')
      rwa [after, List.foldl_append] at hall
    rw [hcalls', List.filterMap_append] at hnames
    rcases mem_begun_of_inTurn hturn' hpoll with hcurrent | hagain
    · cases hcurrent
    · exact List.disjoint_of_nodup_append hnames hbegun hagain
  · exact silent_of_idle h.named

end Scene

end DialogScript
