import DialogScript.Proofs.Player.Exchange
import DialogScript.Proofs.Player.Lockstep

/-!
# Starting anew

A start of a dialog forgets the session before, whatever it was. All that outlives it of a player
are the loader, the configuration and the entries of the log other than those of `temponce`, and if
nothing can be started, the names of the actor and the dialog. Hence players that agree in this
much are the same once they have started the same dialog, and remain so in all that follows.

## Main definitions

* `Host.Likeness.exact`: the lines and logs as they are
* `Operation.FailsWith`: why a dialog cannot be started
* `Scene.Dismissed`, `Scene.EqualSince`: scenes after a start that has failed, and scenes with the
  same player and host that the same calls have led to

## Main results

* `Scene.answer_eq_some_iff`: which error an operation gives, and when
* `Scene.dismissed_of_answer`: what a start that fails leaves
* `Scene.equalSince_start`, `Scene.equalSince_after`: starts and what follows them
* `Scene.start_forgets`: starting a dialog forgets the session before
-/

namespace DialogScript

variable {σ ω : Type} {h : Host σ ω}

/-- The lines and logs as they are. -/
def Host.Likeness.exact (h : Host σ ω) : h.Likeness where
  line := id
  logs _ _ log log' := log' = log
  admits hlogs _ _ _ := by rw [hlogs]; rfl
  insert hlogs _ _ := by rw [hlogs]; rfl

theorem Host.Likeness.player_exact (p : Player ω) :
    (Host.Likeness.exact h).player p.log p = p := by
  simp only [player, exact, Script.mapLines_id]

/-- A start of a dialog fails with the error of the loader, or, if its source is not a script, with
the error in the source, which then names the file of the dialog. -/
inductive Operation.FailsWith (loader : Loader) : Operation → Error → Prop
  | load {actor dialog label : String} {e : Error} (hload : loader dialog = .error e) :
      FailsWith loader (.start actor dialog label) e
  | read {actor dialog label source : String} {e : Error} (hload : loader dialog = .ok source)
      (hread : Script.read source = .error e) :
      FailsWith loader (.start actor dialog label)
        (e.within { source := some (dialog ++ ".byack") })
  | readSource {actor dialog label source : String} {e : Error}
      (hread : Script.read source = .error e) :
      FailsWith loader (.startSource actor dialog label source)
        (e.within { source := some (dialog ++ ".byack") })

namespace Scene

/-- One scene has the player of another without its session, and nothing has been said to the
host. -/
structure Dismissed (s s' : Scene σ ω) : Prop where
  player : s'.player = s.player.dismissed
  calls : s'.calls = s.calls
  host : s'.host = s.host

/-- Two scenes have the same player and the same host, and the same calls have been made since two
others. -/
structure EqualSince (s t s' t' : Scene σ ω) : Prop where
  player : t'.player = s'.player
  host : t'.host = s'.host
  calls : ∃ calls, s'.calls = s.calls ++ calls ∧ t'.calls = t.calls ++ calls

/-! ### Errors -/

theorem startSource_eq_some_iff {s : Scene σ ω} {actor dialog label source : String} {e : Error} :
    (s.startSource h actor dialog label source).1 = some e ↔
      ∃ e', Script.read source = .error e' ∧
        e = e'.within { source := some (dialog ++ ".byack") } := by
  rw [startSource]
  cases Script.read source with
  | error e' => simp [dialogFileName, eq_comm]
  | ok script => simp

theorem start_of_load {s : Scene σ ω} {actor dialog label source : String}
    (hload : s.player.loader dialog = .ok source) :
    s.start h actor dialog label = s.startSource h actor dialog label source := by
  rw [start, hload]

/-- Only a start gives an error: that of the loader, or that in the source. -/
theorem answer_eq_some_iff {s : Scene σ ω} {op : Operation} {e : Error} :
    s.answer h op = some e ↔ op.FailsWith s.player.loader e := by
  cases op with
  | start actor dialog label =>
      cases hload : s.player.loader dialog with
      | error e' =>
          have hanswer : s.answer h (.start actor dialog label) = some e' := by
            simp [answer, start, hload]
          rw [hanswer]
          constructor
          · rintro ⟨⟩
            exact .load hload
          · intro hfails
            cases hfails with
            | load hload' => rw [← Except.error.inj (hload.symm.trans hload')]
            | read hload' => cases hload.symm.trans hload'
      | ok source =>
          rw [answer, start_of_load hload, startSource_eq_some_iff]
          constructor
          · rintro ⟨e', hread, rfl⟩
            exact .read hload hread
          · intro hfails
            cases hfails with
            | load hload' => cases hload.symm.trans hload'
            | read hload' hread =>
                obtain rfl := Except.ok.inj (hload.symm.trans hload')
                exact ⟨_, hread, rfl⟩
  | startSource actor dialog label source =>
      rw [answer, startSource_eq_some_iff]
      constructor
      · rintro ⟨e', hread, rfl⟩
        exact .readSource hread
      · intro hfails
        cases hfails with
        | readSource hread => exact ⟨_, hread, rfl⟩
  | update | choose | goTo | finish | setLog =>
      refine iff_of_false (fun hanswer => ?_) fun hfails => ?_
      · cases hanswer
      · cases hfails

theorem answer_congr {s t : Scene σ ω} (hloader : t.player.loader = s.player.loader)
    (op : Operation) : t.answer h op = s.answer h op := by
  refine Option.ext fun e => ?_
  rw [answer_eq_some_iff, answer_eq_some_iff, hloader]

/-! ### Starts -/

theorem dismissed_startSource {s : Scene σ ω} {actor dialog label source : String} {e : Error}
    (hanswer : (s.startSource h actor dialog label source).1 = some e) :
    Dismissed s (s.startSource h actor dialog label source).2 := by
  obtain ⟨e', hread, -⟩ := startSource_eq_some_iff.mp hanswer
  obtain ⟨hcalls, hhost⟩ := silent_reading s source
  rw [startSource_of_error hread]
  exact ⟨player_reading s source, hcalls, hhost⟩

/-- A start that fails leaves the player without its session, and says nothing to the host. -/
theorem dismissed_of_answer {s : Scene σ ω} {op : Operation} {e : Error}
    (hanswer : s.answer h op = some e) : Dismissed s (s.apply h op) := by
  cases op with
  | start actor dialog label =>
      cases hload : s.player.loader dialog with
      | error e' =>
          rw [apply, start, hload]
          exact ⟨player_reset s, calls_finish s, host_finish s⟩
      | ok source =>
          rw [answer, start_of_load hload] at hanswer
          rw [apply, start_of_load hload]
          exact dismissed_startSource hanswer
  | startSource => exact dismissed_startSource hanswer
  | update | choose | goTo | finish | setLog => cases hanswer

namespace EqualSince

variable {s t s₁ t₁ s' t' : Scene σ ω}

theorem trans (h₁ : EqualSince s t s₁ t₁) (h₂ : EqualSince s₁ t₁ s' t') :
    EqualSince s t s' t' := by
  obtain ⟨calls, hs₁, ht₁⟩ := h₁.calls
  obtain ⟨calls', hs', ht'⟩ := h₂.calls
  refine ⟨h₂.player, h₂.host, calls ++ calls', ?_, ?_⟩
  · rw [hs', hs₁, List.append_assoc]
  · rw [ht', ht₁, List.append_assoc]

/-- Nothing has been said to the hosts. -/
theorem of_calls_eq (hplayer : t'.player = s'.player) (hhost : t'.host = s'.host)
    (hs : s'.calls = s.calls) (ht : t'.calls = t.calls) : EqualSince s t s' t' :=
  ⟨hplayer, hhost, [], by rw [hs, List.append_nil], by rw [ht, List.append_nil]⟩

/-- Scenes with the same player and host are in step. -/
theorem inStep (hplayer : t.player = s.player) (hhost : t.host = s.host) :
    InStep (.exact h) s.events t.events s t := by
  refine ⟨⟨s.player.log, rfl, ?_⟩, hhost, [], (List.append_nil _).symm, (List.append_nil _).symm⟩
  rw [hplayer, Host.Likeness.player_exact]

theorem of_inStep (hst : InStep (.exact h) s.events t.events s' t') : EqualSince s t s' t' := by
  obtain ⟨calls, hs, ht⟩ := hst.calls
  obtain ⟨⟨log, rfl, hplayer⟩, hhost, -⟩ := hst
  rw [Host.Likeness.player_exact] at hplayer
  have hcalls : calls.map (·.mapLine (Host.Likeness.exact h).line) = calls :=
    List.map_id'' Call.mapLine_id calls
  exact ⟨hplayer, hhost, calls, hs, hcalls ▸ ht⟩

end EqualSince

/-- Players with the same loader and configuration, and with logs that agree but for the entries of
`temponce`, do the same when they start a dialog from its source, and are the same then. -/
theorem equalSince_startSource {s t : Scene σ ω} {actor dialog label source : String}
    (hloader : t.player.loader = s.player.loader) (hconfig : t.player.config = s.player.config)
    (hlog : t.player.log.purgeTempOnce = s.player.log.purgeTempOnce) (hhost : t.host = s.host)
    (hanswer : (s.startSource h actor dialog label source).1 = none) :
    EqualSince s t (s.startSource h actor dialog label source).2
      (t.startSource h actor dialog label source).2 := by
  cases hread : Script.read source with
  | error e =>
      rw [startSource_eq_some_iff.mpr ⟨e, hread, rfl⟩] at hanswer
      cases hanswer
  | ok script =>
      rw [startSource_of_ok hread, startSource_of_ok hread, goTo_eq_proceed, goTo_eq_proceed]
      obtain ⟨hcallsₛ, hhostₛ⟩ := silent_opened s actor dialog label source script
      obtain ⟨hcallsₜ, hhostₜ⟩ := silent_opened t actor dialog label source script
      -- What the two players do not share are the names, and opening the dialog replaces these.
      have hplayer : (t.opened actor dialog label source script).player =
          (s.opened actor dialog label source script).player := by
        simp only [player_opened, Player.dismissed, hloader, hconfig, hlog]
      have hopened : EqualSince s t (s.opened actor dialog label source script)
          (t.opened actor dialog label source script) :=
        .of_calls_eq hplayer (by rw [hhostₛ, hhostₜ, hhost]) hcallsₛ hcallsₜ
      have hentered := (EqualSince.inStep (h := h) hopened.player hopened.host).enter label
      exact hopened.trans (.of_inStep hentered.proceed)

/-- The same goes for a start by the loader. -/
theorem equalSince_start {s t : Scene σ ω} {op : Operation} (hop : op.isStart = true)
    (hloader : t.player.loader = s.player.loader) (hconfig : t.player.config = s.player.config)
    (hlog : t.player.log.purgeTempOnce = s.player.log.purgeTempOnce) (hhost : t.host = s.host)
    (hanswer : s.answer h op = none) : EqualSince s t (s.apply h op) (t.apply h op) := by
  cases op with
  | start actor dialog label =>
      cases hload : s.player.loader dialog with
      | error e =>
          rw [answer_eq_some_iff.mpr (.load hload)] at hanswer
          cases hanswer
      | ok source =>
          rw [answer, start_of_load hload] at hanswer
          rw [apply, apply, start_of_load hload, start_of_load (hloader ▸ hload)]
          exact equalSince_startSource hloader hconfig hlog hhost hanswer
  | startSource actor dialog label source =>
      exact equalSince_startSource hloader hconfig hlog hhost hanswer
  | update | choose | goTo | finish | setLog => cases hop

/-! ### What follows -/

/-- The same player does the same with the same host. -/
theorem equalSince_apply {s t : Scene σ ω} (hplayer : t.player = s.player)
    (hhost : t.host = s.host) (op : Operation) :
    EqualSince s t (s.apply h op) (t.apply h op) := by
  have hstays (hop : op.stays = true) : EqualSince s t (s.apply h op) (t.apply h op) :=
    .of_inStep ((EqualSince.inStep hplayer hhost).apply hop)
  have hstarts (hop : op.isStart = true) : EqualSince s t (s.apply h op) (t.apply h op) := by
    have hloader : t.player.loader = s.player.loader := by rw [hplayer]
    cases hanswer : s.answer h op with
    | none => exact equalSince_start hop hloader (by rw [hplayer]) (by rw [hplayer]) hhost hanswer
    | some e =>
        have hs := dismissed_of_answer hanswer
        have ht := dismissed_of_answer ((answer_congr hloader op).trans hanswer)
        refine .of_calls_eq ?_ ?_ hs.calls ht.calls
        · rw [hs.player, ht.player, hplayer]
        · rw [hs.host, ht.host, hhost]
  cases op with
  | start | startSource => exact hstarts rfl
  | update | choose | goTo | finish => exact hstays rfl
  | setLog log =>
      exact .of_calls_eq (congrArg (Player.withLog · log) hplayer) hhost rfl rfl

/-- Scenes with the same player and host stay so. -/
theorem equalSince_after {s t s' t' : Scene σ ω} (hst : EqualSince s t s' t')
    (ops : List Operation) : EqualSince s t (s'.after h ops) (t'.after h ops) := by
  induction ops generalizing s' t' with
  | nil => exact hst
  | cons op ops ih => exact ih (hst.trans (equalSince_apply hst.player hst.host op))

/-- Starting a dialog forgets the session before. Players with the same loader and configuration,
and with logs that agree but for the entries of `temponce`, get the same answer from a start. If it
is an error, of the loader or in the source, nothing is said to the host, and either player is left
without its session. Else both players make the same calls, and from then on they are the same,
whatever is done with them. -/
theorem start_forgets {s t : Scene σ ω} {op : Operation} (hop : op.isStart = true)
    (hloader : t.player.loader = s.player.loader) (hconfig : t.player.config = s.player.config)
    (hlog : t.player.log.purgeTempOnce = s.player.log.purgeTempOnce) (hhost : t.host = s.host) :
    t.answer h op = s.answer h op ∧
      (∀ e, s.answer h op = some e ↔ op.FailsWith s.player.loader e) ∧
      (s.answer h op ≠ none → Dismissed s (s.apply h op) ∧ Dismissed t (t.apply h op)) ∧
      (s.answer h op = none → ∀ ops,
        EqualSince s t ((s.apply h op).after h ops) ((t.apply h op).after h ops) ∧
          ∀ op', ((t.apply h op).after h ops).answer h op' =
            ((s.apply h op).after h ops).answer h op') := by
  have hanswer := answer_congr (h := h) hloader op
  refine ⟨hanswer, fun e => answer_eq_some_iff, fun hne => ?_, fun hnone ops => ?_⟩
  · obtain ⟨e, he⟩ := Option.ne_none_iff_exists'.mp hne
    exact ⟨dismissed_of_answer he, dismissed_of_answer (hanswer.trans he)⟩
  · have hsame := equalSince_after (h := h)
      (equalSince_start hop hloader hconfig hlog hhost hnone) ops
    exact ⟨hsame, answer_congr (by rw [hsame.player])⟩

/-- A player with a choice on offer and an entry of `temponce` in its log starts as a new one does,
and loses its dialog if the source is not a script. -/
theorem start_of_choosing :
    let p : Player Unit := {
      loader := fun name => .error (.notFound name), log := ⟨[⟨.tempOnce, ⟨"a", "d", 2⟩⟩]⟩,
      script := ⟨[⟨"s", [⟨.choice 1 "x" "s", [⟨.scope .tempOnce, 2⟩]⟩]⟩]⟩, actor := "a",
      dialog := "d", label := some 0, cursor := 1, slots := Slots.empty.set 0 (some 0),
      phase := .choosing, parrot := false, override := "s" }
    let s : Scene Unit Unit := { player := p, host := () }
    let t : Scene Unit Unit := { player := .new p.loader, host := () }
    let op : Operation := .startSource "b" "e" "s" ":s\nb: \"y\"\n"
    let op' : Operation := .startSource "b" "e" "s" ":s\nb\n"
    (∀ ops, EqualSince s t ((s.apply Host.instant op).after Host.instant ops)
      ((t.apply Host.instant op).after Host.instant ops)) ∧
        s.answer Host.instant op' ≠ none ∧ Dismissed s (s.apply Host.instant op') := by
  intro p s t op op'
  have hnone : s.answer Host.instant op = none := by decide +kernel
  have hsome : s.answer Host.instant op' ≠ none := by decide +kernel
  have hop : op.isStart = true := rfl
  have hop' : op'.isStart = true := rfl
  obtain ⟨-, -, -, hsame⟩ :=
    start_forgets (h := Host.instant) (s := s) (t := t) hop rfl rfl rfl rfl
  obtain ⟨-, -, hdismissed, -⟩ :=
    start_forgets (h := Host.instant) (s := s) (t := t) hop' rfl rfl rfl rfl
  exact ⟨fun ops => (hsame hnone ops).1, hsome, (hdismissed hsome).1⟩

end Scene

end DialogScript
