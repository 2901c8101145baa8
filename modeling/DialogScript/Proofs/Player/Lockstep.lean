import DialogScript.Proofs.Log
import DialogScript.Proofs.Player.Lead
import DialogScript.Proofs.Player.Transcript
import DialogScript.Proofs.Script.Lines

/-!
# Players in step

What a session does next depends on the player and its host alone, not on how they have come about.
Of the player, the numbers of the source lines and the condition log matter only through the answers
of the host: if a host does not tell two logs apart, with the lines of one renumbered, players that
differ in nothing else do the same as long as they stay in their session. They make the same calls,
up to the numbers of lines, and keep to logs that the host does not tell apart.

## Main definitions

* `Event.mapLine`: an event with the lines of conditions renumbered
* `Host.LeavesToLog`: the host leaves to the log which sites bar a line
* `Host.Likeness`: lines and logs that a host does not tell apart
* `Scene.InStep`, `Scene.BothInStep`: scenes that differ in nothing else, and steps with the same
  result that lead to such scenes

## Main results

* `Scene.InStep.advance`: players in step run in step
* `Scene.InStep.apply`, `Scene.InStep.after`: players in step stay in step within their session
* `Scene.InStep.calls`: and make the same calls up to the numbers of lines
-/

namespace DialogScript

/-! ### Renumbered lines -/

section Lines

variable (f : UInt32 → UInt32)

/-- The site on another line. -/
def Site.mapLine (site : Site) : Site := { site with line := f site.line }

/-- The entry for another line. -/
def Entry.mapLine (e : Entry) : Entry := { e with site := e.site.mapLine f }

/-- The call with the line that it names renumbered. -/
def Call.mapLine {ω : Type} : Call ω → Call ω
  | scope s site admitted => .scope s (site.mapLine f) admitted
  | c => c

/-- The event with the lines of conditions renumbered. -/
def Event.mapLine {ω : Type} : Event ω → Event ω
  | call c => .call (c.mapLine f)
  | remark r => .remark r
  | judged actor dialog st accepted => .judged actor dialog (st.mapLines f) accepted
  | used actor dialog st => .used actor dialog (st.mapLines f)

theorem lastIndex?_map {α β : Type} (g : α → β) (p : β → Bool) (xs : List α) :
    lastIndex? p (xs.map g) = lastIndex? (p ∘ g) xs := by
  induction xs with
  | nil => rfl
  | cons x xs ih => rw [List.map_cons, lastIndex?, lastIndex?, ih, Function.comp_apply]

theorem Script.findLabel?_mapLines (script : Script) (name : String) :
    (script.mapLines f).findLabel? name = script.findLabel? name := lastIndex?_map _ _ _

theorem Statement.entries_mapLines (st : Statement) (scopes : Scope → Bool)
    (actor dialog : String) : (st.mapLines f).entries scopes actor dialog =
      (st.entries scopes actor dialog).map (·.mapLine f) := by
  rw [entries, entries, mapLines_conditions, List.filterMap_map, List.map_filterMap]
  refine congrArg (List.filterMap · _) (funext fun c => ?_)
  obtain ⟨gate, line⟩ := c
  cases gate with
  | code text => rfl
  | scope scope =>
      simp only [Function.comp_apply, Condition.mapLine]
      split <;> rfl

theorem Call.mapLine_id {ω : Type} (c : Call ω) : c.mapLine id = c := by
  cases c <;> rfl

theorem Statement.choice?_mapLines (st : Statement) : (st.mapLines f).choice? = st.choice? := rfl

end Lines

/-- The operation belongs to the session that is on, and leaves the log to it. -/
def Operation.stays : Operation → Bool
  | update | choose _ | goTo _ | finish => true
  | start .. | startSource .. | setLog _ => false

variable {σ ω α : Type}

/-! ### Scenes in step -/

/-- The host leaves the conditions of the once family to the log: it does not answer them itself,
nor does it change when they are asked. -/
def Host.LeavesToLog (h : Host σ ω) : Prop :=
  ∀ scope log site state, h.admits scope log site state = (!log.contains scope site, state)

/-- Lines and, in a session of an actor and a dialog, logs that the host does not tell apart, nor
will it when both logs have been added to. -/
structure Host.Likeness (h : Host σ ω) where
  line : UInt32 → UInt32
  logs : (actor dialog : String) → Log → Log → Prop
  admits : ∀ {actor dialog log log'}, logs actor dialog log log' → ∀ scope l x,
    h.admits scope log' ⟨actor, dialog, line l⟩ x = h.admits scope log ⟨actor, dialog, l⟩ x
  insert : ∀ {actor dialog log log'}, logs actor dialog log log' → ∀ scope l,
    logs actor dialog (log.insert ⟨scope, ⟨actor, dialog, l⟩⟩)
      (log'.insert ⟨scope, ⟨actor, dialog, line l⟩⟩)

namespace Host.Likeness

variable {h : Host σ ω} (L : h.Likeness)

/-- The player with other lines and another log. -/
@[simps] def player (log : Log) (p : Player ω) : Player ω :=
  { p with script := p.script.mapLines L.line, log }

theorem label?_player (log : Log) (p : Player ω) :
    (L.player log p).label? = p.label?.map (·.mapLines L.line) := by
  simp only [Player.label?, player_label, player_script, Script.mapLines_labels, List.getElem?_map,
    Option.map_bind, Function.comp_def]

theorem statement?_player (log : Log) (p : Player ω) (i : Nat) :
    (L.player log p).statement? i = (p.statement? i).map (·.mapLines L.line) := by
  simp only [Player.statement?, label?_player, Option.bind_map, Option.map_bind, Function.comp_def,
    Label.mapLines_statements, List.getElem?_map]

theorem picked?_player (log : Log) (p : Player ω) (choice : Nat) :
    (L.player log p).picked? choice = (p.picked? choice).map (·.mapLines L.line) := by
  rw [Player.picked?, Player.picked?]
  split
  · rfl
  · exact (congrArg _ (funext (L.statement?_player log p))).trans Option.map_bind.symm

variable {L}

/-- Logs that are not told apart may both be added to. -/
theorem extend {actor dialog : String} {log log' : Log} (hlogs : L.logs actor dialog log log')
    {es : List Entry} (hes : ∀ e ∈ es, e.site.actor = actor ∧ e.site.dialog = dialog) :
    L.logs actor dialog (log.extend es) (log'.extend (es.map (·.mapLine L.line))) := by
  induction es generalizing log log' with
  | nil => exact hlogs
  | cons e es ih =>
      obtain ⟨⟨rfl, rfl⟩, hes⟩ := List.forall_mem_cons.mp hes
      exact ih (L.insert hlogs e.scope e.site.line) hes

end Host.Likeness

namespace Scene

variable {h : Host σ ω} {L : h.Likeness} {k k' : List (Event ω)}

/-- Two scenes differ in nothing but lines and logs that the host does not tell apart, and the same
has happened since their transcripts were `k` and `k'`. -/
structure InStep (L : h.Likeness) (k k' : List (Event ω)) (s t : Scene σ ω) : Prop where
  player : ∃ log, L.logs s.player.actor s.player.dialog s.player.log log ∧
    t.player = L.player log s.player
  host : t.host = s.host
  events : ∃ more, s.events = k ++ more ∧ t.events = k' ++ more.map (·.mapLine L.line)

/-- Two steps have the same result and lead to scenes in step. -/
def BothInStep (L : h.Likeness) (k k' : List (Event ω)) (a b : α × Scene σ ω) : Prop :=
  b.1 = a.1 ∧ InStep L k k' a.2 b.2

theorem BothInStep.exists_eq {a b : α × Scene σ ω} (hab : BothInStep L k k' a b) :
    ∃ x s t, a = (x, s) ∧ b = (x, t) ∧ InStep L k k' s t :=
  ⟨a.1, a.2, b.2, rfl, Prod.ext hab.1 rfl, hab.2⟩

namespace InStep

variable {s t : Scene σ ω}

/-- What does not depend on the lines and the log is the same of both players. -/
theorem same (hst : InStep L k k' s t) (what : Player ω → α)
    (hwhat : ∀ log p, what (L.player log p) = what p) : what t.player = what s.player := by
  obtain ⟨log, -, hplayer⟩ := hst.player
  rw [hplayer, hwhat]

theorem note (hst : InStep L k k' s t) (e : Event ω) :
    InStep L k k' (s.note e) (t.note (e.mapLine L.line)) := by
  obtain ⟨hplayer, hhost, more, hs, ht⟩ := hst
  refine ⟨hplayer, hhost, more ++ [e], ?_, ?_⟩
  · rw [events_note, hs, List.append_assoc]
  · rw [events_note, ht, List.append_assoc, List.map_append, List.map_singleton]

theorem remark (hst : InStep L k k' s t) (r : Remark) : InStep L k k' (s.remark r) (t.remark r) :=
  hst.note (.remark r)

/-- Both hosts take the same call. -/
theorem call (hst : InStep L k k' s t) (host : σ) (c : Call ω) :
    InStep L k k' (Scene.note { s with host } (.call c))
      (Scene.note { t with host } (.call (c.mapLine L.line))) := by
  have hcalled : InStep L k k' { s with host } { t with host } := ⟨hst.player, rfl, hst.events⟩
  exact hcalled.note (.call c)

/-- Both players are changed alike. -/
theorem change (hst : InStep L k k' s t) (change : Player ω → Player ω)
    (hchange : ∀ log p, change (L.player log p) = L.player log (change p))
    (hactor : ∀ p, (change p).actor = p.actor) (hdialog : ∀ p, (change p).dialog = p.dialog)
    (hlog : ∀ p, (change p).log = p.log) :
    InStep L k k' { s with player := change s.player } { t with player := change t.player } := by
  obtain ⟨⟨log, hlogs, hplayer⟩, hhost, hevents⟩ := hst
  refine ⟨⟨log, ?_, ?_⟩, hhost, hevents⟩
  · dsimp only
    rwa [hactor, hdialog, hlog]
  · dsimp only
    rw [hplayer, hchange]

theorem inPhase (hst : InStep L k k' s t) (phase : Phase) :
    InStep L k k' (s.inPhase phase) (t.inPhase phase) :=
  hst.change (fun p => { p with phase }) (fun _ _ => rfl) (fun _ => rfl) (fun _ => rfl) fun _ => rfl

theorem step (hst : InStep L k k' s t) : InStep L k k' s.step t.step :=
  hst.change (fun p => { p with cursor := p.cursor + 1 }) (fun _ _ => rfl) (fun _ => rfl)
    (fun _ => rfl) fun _ => rfl

theorem await (hst : InStep L k k' s t) (handle : ω) :
    InStep L k k' (s.await handle) (t.await handle) :=
  hst.change (fun p => { p with wait := some handle, phase := .waiting }) (fun _ _ => rfl)
    (fun _ => rfl) (fun _ => rfl) fun _ => rfl

theorem enterAt (hst : InStep L k k' s t) (i : Nat) :
    InStep L k k' (s.enterAt i) (t.enterAt i) :=
  hst.change (fun p => { p with phase := .entered, label := some i, cursor := 0, slots := .empty })
    (fun _ _ => rfl) (fun _ => rfl) (fun _ => rfl) fun _ => rfl

theorem finish (hst : InStep L k k' s t) : InStep L k k' s.finish t.finish := by
  have hphase := hst.same Player.phase fun _ _ => rfl
  have hdialog := hst.same Player.dialog fun _ _ => rfl
  have hended {s t : Scene σ ω} (hst : InStep L k k' s t) := hst.change
    (fun p => { p with
      phase := .idle, label := none, cursor := 0, wait := none, destination := "",
      slots := .empty }) (fun _ _ => rfl) (fun _ => rfl) (fun _ => rfl) fun _ => rfl
  unfold Scene.finish
  rw [hphase, hdialog]
  split
  · exact hended hst
  · exact hended (hst.remark _)

theorem enter (hst : InStep L k k' s t) (name : String) :
    BothInStep L k k' (s.enter name) (t.enter name) := by
  have hdialog := hst.same Player.dialog fun _ _ => rfl
  have hfind := hst.same (·.script.findLabel? name) fun _ _ =>
    Script.findLabel?_mapLines L.line _ name
  unfold Scene.enter
  rw [hfind, hdialog]
  split
  · exact ⟨rfl, (hst.remark _).enterAt _⟩
  · exact ⟨rfl, (hst.remark _).finish⟩

theorem offer (hst : InStep L k k' s t) (number : Int32) :
    InStep L k k' (s.offer number) (t.offer number) := by
  have hslots := hst.same Player.slots fun _ _ => rfl
  have hoffered := hst.same Player.offered fun _ _ => rfl
  have hlimit := hst.same Player.limit fun _ _ => rfl
  have hcursor := hst.same Player.cursor fun _ _ => rfl
  have hdialog := hst.same Player.dialog fun _ _ => rfl
  unfold Scene.offer
  dsimp only
  rw [hslots, hoffered, hlimit, hcursor, hdialog]
  split
  · split
    · exact hst.remark _
    · split
      · exact hst.remark _
      · obtain ⟨⟨log, hlogs, hplayer⟩, hhost, hevents⟩ := hst
        refine ⟨⟨log, hlogs, ?_⟩, hhost, hevents⟩
        rw [hplayer]
        rfl
  · exact hst.remark _

/-! ### Calls of the host -/

theorem perform (hst : InStep L k k' s t) (e : Effect) :
    InStep L k k' (s.perform h e) (t.perform h e) := by
  rw [Scene.perform, Scene.perform, hst.host]
  exact hst.call _ (.effect e)

theorem begin (hst : InStep L k k' s t) (d : Delay) :
    BothInStep L k k' (s.begin h d) (t.begin h d) := by
  rw [Scene.begin, Scene.begin, hst.host]
  exact ⟨rfl, hst.call _ (.delay d _)⟩

theorem poll (hst : InStep L k k' s t) (handle : ω) :
    BothInStep L k k' (s.poll h handle) (t.poll h handle) := by
  rw [Scene.poll, Scene.poll, hst.host]
  exact ⟨rfl, hst.call _ (.poll handle _)⟩

theorem ask (hst : InStep L k k' s t) (c : Condition) :
    BothInStep L k k' (s.ask h c) (t.ask h (c.mapLine L.line)) := by
  obtain ⟨gate, line⟩ := c
  cases gate with
  | code text =>
      simp only [Scene.ask, Condition.mapLine, hst.host]
      exact ⟨rfl, hst.call _ (.code text _)⟩
  | scope scope =>
      obtain ⟨log, hlogs, hplayer⟩ := hst.player
      have hsite : t.player.site (L.line line) = (s.player.site line).mapLine L.line := by
        rw [hplayer]
        rfl
      have hadmits : h.admits scope t.player.log ((s.player.site line).mapLine L.line) s.host =
          h.admits scope s.player.log (s.player.site line) s.host := by
        rw [hplayer]
        exact L.admits hlogs scope line s.host
      simp only [Scene.ask, Condition.mapLine, hst.host, hsite, hadmits]
      exact ⟨rfl, hst.call _ (.scope scope (s.player.site line) _)⟩

theorem askAll (hst : InStep L k k' s t) (cs : List Condition) :
    BothInStep L k k' (s.askAll h cs) (t.askAll h (cs.map (·.mapLine L.line))) := by
  induction cs generalizing s t with
  | nil => exact ⟨rfl, hst⟩
  | cons c cs ih =>
      obtain ⟨hanswer, hasked⟩ := hst.ask c
      rw [List.map_cons, askAll_cons, askAll_cons, hanswer]
      split
      · exact ih hasked
      · exact ⟨rfl, hasked⟩

/-! ### Statements -/

theorem log (hst : InStep L k k' s t) (scopes : Scope → Bool) (st : Statement) :
    InStep L k k' (s.log scopes st) (t.log scopes (st.mapLines L.line)) := by
  obtain ⟨⟨log, hlogs, hplayer⟩, hhost, hevents⟩ := hst
  refine ⟨⟨_, L.extend hlogs fun e he => ?_, ?_⟩, hhost, hevents⟩
  · obtain ⟨-, hactor, hdialog, -⟩ := Statement.mem_entries.mp he
    exact ⟨hactor, hdialog⟩
  · simp only [Scene.log, hplayer, Statement.entries_mapLines]
    rfl

theorem judge (hst : InStep L k k' s t) (st : Statement) :
    BothInStep L k k' (s.judge h st) (t.judge h (st.mapLines L.line)) := by
  obtain ⟨hanswer, hasked⟩ := hst.askAll st.conditions
  have hlogged := hasked.log Scope.onShow st
  have hactor := hlogged.same Player.actor fun _ _ => rfl
  have hdialog := hlogged.same Player.dialog fun _ _ => rfl
  refine ⟨hanswer, ?_⟩
  simp only [Scene.judge, Statement.mapLines_conditions, hactor, hdialog, hanswer]
  exact hlogged.note (.judged _ _ st _)

theorem follow (hst : InStep L k k' s t) (i : Instruction) :
    BothInStep L k k' (s.follow h i) (t.follow h i) := by
  have hwaiting (d : Delay) :
      BothInStep L k k' (Scene.follow.waiting (s.begin h d)) (Scene.follow.waiting (t.begin h d)) :=
    ⟨congrArg Flow.wait (hst.begin d).1, (hst.begin d).2⟩
  cases i with
  | choice => exact ⟨rfl, hst⟩
  | say | pause | waitFor | waitWhile => exact hwaiting _
  | goto | code | dialog | shutUp | allowObjects => exact ⟨rfl, hst.perform _⟩
  | parrot active =>
      exact ⟨rfl, (hst.change (fun p => { p with parrot := active }) (fun _ _ => rfl)
        (fun _ => rfl) (fun _ => rfl) fun _ => rfl).perform _⟩
  | override label =>
      exact ⟨rfl, (hst.change (fun p => { p with override := label }) (fun _ _ => rfl)
        (fun _ => rfl) (fun _ => rfl) fun _ => rfl).perform _⟩
  | limit max =>
      exact ⟨rfl, (hst.change (fun p => { p with limit := max.toInt.toNat }) (fun _ _ => rfl)
        (fun _ => rfl) (fun _ => rfl) fun _ => rfl).perform _⟩

theorem use (hst : InStep L k k' s t) (st : Statement) :
    InStep L k k' (s.use st) (t.use (st.mapLines L.line)) := by
  have hactor := hst.same Player.actor fun _ _ => rfl
  have hdialog := hst.same Player.dialog fun _ _ => rfl
  have hused := (hst.log (!·.onShow) st).note (.used s.player.actor s.player.dialog st)
  rw [Scene.use, Scene.use, hactor, hdialog]
  exact hused

theorem run (hst : InStep L k k' s t) (st : Statement) :
    BothInStep L k k' (s.run h st) (t.run h (st.mapLines L.line)) := by
  have hdialog := hst.same Player.dialog fun _ _ => rfl
  have hlabel := hst.same Player.currentLabel? fun log p => by
    rw [Player.currentLabel?, L.label?_player, Option.map_map]
    rfl
  obtain ⟨hflow, hfollowed⟩ :=
    (hst.remark (.ran s.player.dialog st.instruction.name s.player.currentLabel?)).follow
      st.instruction
  simp only [Scene.run, Statement.mapLines_instruction, hdialog, hlabel]
  exact ⟨hflow, hfollowed.use st⟩

theorem runStatements (hst : InStep L k k' s t) (sts : List Statement) :
    BothInStep L k k' (s.runStatements h sts)
      (t.runStatements h (sts.map (·.mapLines L.line))) := by
  induction sts generalizing s t with
  | nil =>
      have hchoices := hst.same Player.hasChoices fun _ _ => rfl
      rw [List.map_nil, Scene.runStatements, Scene.runStatements, hchoices]
      split
      · exact ⟨rfl, hst.inPhase .choosing⟩
      · exact ⟨rfl, hst⟩
  | cons st sts ih =>
      obtain ⟨accepted, s₁, t₁, hs, ht, hjudged⟩ := (hst.judge (h := h) st).exists_eq
      rw [List.map_cons, Scene.runStatements, Scene.runStatements, hs, ht]
      cases accepted with
      | false => exact ih hjudged.step
      | true =>
          dsimp only
          rw [Statement.mapLines_instruction]
          cases hinstruction : st.instruction with
          | choice number text target => exact ih (hjudged.offer number).step
          | _ =>
              dsimp only
              rw [hjudged.same Player.hasChoices fun _ _ => rfl]
              split
              · exact ⟨rfl, hjudged.inPhase .choosing⟩
              · obtain ⟨flow, s₂, t₂, hs, ht, hran⟩ := (hjudged.run (h := h) st).exists_eq
                rw [hs, ht]
                cases flow with
                | next => exact ih hran.step
                | wait handle => exact ⟨rfl, hran.await handle⟩
                | jump name => exact ⟨rfl, hran⟩

theorem runLabels (hst : InStep L k k' s t) (ls : List Label) :
    BothInStep L k k' (s.runLabels h ls) (t.runLabels h (ls.map (·.mapLines L.line))) := by
  induction ls generalizing s t with
  | nil => exact ⟨rfl, hst.finish⟩
  | cons l ls ih =>
      have hcursor := hst.same Player.cursor fun _ _ => rfl
      obtain ⟨halt, s₁, t₁, hs, ht, hran⟩ :=
        (hst.runStatements (h := h) (l.statements.drop s.player.cursor)).exists_eq
      rw [List.map_cons, Scene.runLabels, Scene.runLabels, hcursor, Label.mapLines_statements,
        ← List.map_drop, hs, ht]
      cases halt with
      | stopped => exact ⟨rfl, hran⟩
      | jump name => exact ⟨rfl, hran⟩
      | through =>
          dsimp only
          rw [List.isEmpty_map]
          split
          · exact ⟨rfl, hran.finish⟩
          · rw [hran.same Player.label fun _ _ => rfl]
            exact ih ((hran.enterAt _).inPhase .running)

/-! ### Activations -/

theorem runJumps (hst : InStep L k k' s t) (n : Nat) :
    InStep L k k' (s.runJumps h n) (t.runJumps h n) := by
  induction n generalizing s t with
  | zero => exact hst
  | succ n ih =>
      have hahead : t.labelsAhead = s.labelsAhead.map (·.mapLines L.line) := by
        obtain ⟨log, -, hplayer⟩ := hst.player
        rw [labelsAhead, labelsAhead, hplayer, L.player_label]
        cases s.player.label with
        | none => rfl
        | some i => exact (List.map_drop).symm
      obtain ⟨name?, s₁, t₁, hs, ht, hran⟩ :=
        (hst.runLabels (h := h) s.labelsAhead).exists_eq
      rw [Scene.runJumps, Scene.runJumps, hahead, hs, ht]
      cases name? with
      | none => exact hran
      | some name =>
          obtain ⟨found, s₂, t₂, hs, ht, hentered⟩ := (hran.enter name).exists_eq
          dsimp only
          rw [hs, ht]
          cases found with
          | false => exact hentered
          | true =>
              dsimp only
              split
              · exact (hentered.inPhase .running).remark _
              · exact ih (hentered.inPhase .running)

/-- Players in step run in step. -/
theorem advance (hst : InStep L k k' s t) : InStep L k k' (s.advance h) (t.advance h) := by
  rw [Scene.advance, Scene.advance, hst.same (·.config.maxJumps) fun _ _ => rfl]
  exact (hst.inPhase .running).runJumps _

end InStep

theorem BothInStep.proceed {a b : Bool × Scene σ ω} (hab : BothInStep L k k' a b) :
    InStep L k k' (proceed h a) (proceed h b) := by
  obtain ⟨goes, s⟩ := a
  obtain ⟨goes', t⟩ := b
  obtain ⟨hgoes, hst⟩ := hab
  obtain rfl : goes' = goes := hgoes
  cases goes' with
  | false => exact hst
  | true => exact hst.advance

namespace InStep

variable {s t : Scene σ ω}

/-! ### Operations -/

theorem echo (hst : InStep L k k' s t) (text target : String) :
    InStep L k k' (s.echo h text target) (t.echo h text target) := by
  have hactor := hst.same Player.actor fun _ _ => rfl
  have hechoing := hst.change (fun p => { p with phase := .echoing, destination := target })
    (fun _ _ => rfl) (fun _ => rfl) (fun _ => rfl) fun _ => rfl
  obtain ⟨hhandle, hbegun⟩ := hechoing.begin (h := h) (.say s.player.actor text)
  unfold Scene.echo
  rw [hactor]
  dsimp only
  rw [hhandle]
  exact hbegun.change (fun p => { p with wait := some _ }) (fun _ _ => rfl) (fun _ => rfl)
    (fun _ => rfl) fun _ => rfl

theorem pick (hst : InStep L k k' s t) (choice : Nat) :
    BothInStep L k k' (s.pick h choice) (t.pick h choice) := by
  have hphase := hst.same Player.phase fun _ _ => rfl
  have hparrot := hst.same Player.parrot fun _ _ => rfl
  have hpicked : t.player.picked? choice = (s.player.picked? choice).map (·.mapLines L.line) := by
    obtain ⟨log, -, hplayer⟩ := hst.player
    rw [hplayer, L.picked?_player]
  rw [Scene.pick, Scene.pick, hphase, hpicked, hparrot]
  split
  · exact ⟨rfl, hst.remark _⟩
  · cases s.player.picked? choice with
    | none => exact ⟨rfl, hst.remark _⟩
    | some st =>
        dsimp only [Option.map_some]
        rw [Statement.choice?_mapLines]
        rcases st.choice? with _ | ⟨number, text, target⟩
        · exact ⟨rfl, hst⟩
        · dsimp only
          split
          · exact ⟨rfl, (hst.use st).echo text target⟩
          · exact (hst.use st).enter target

theorem pollWait (hst : InStep L k k' s t) :
    BothInStep L k k' (s.pollWait h) (t.pollWait h) := by
  rw [Scene.pollWait, Scene.pollWait, hst.same Player.wait fun _ _ => rfl]
  cases s.player.wait with
  | none => exact ⟨rfl, hst⟩
  | some handle =>
      obtain ⟨ready, s₁, t₁, hs, ht, hpolled⟩ := (hst.poll (h := h) handle).exists_eq
      dsimp only
      rw [hs, ht]
      cases ready with
      | false => exact ⟨rfl, hpolled⟩
      | true =>
          exact ⟨rfl, hpolled.change (fun p => { p with wait := none }) (fun _ _ => rfl)
            (fun _ => rfl) (fun _ => rfl) fun _ => rfl⟩

theorem goOn (hst : InStep L k k' s t) : BothInStep L k k' s.goOn t.goOn := by
  have hdestination := hst.same Player.destination fun _ _ => rfl
  have hcleared := hst.change (fun p => { p with destination := "" }) (fun _ _ => rfl)
    (fun _ => rfl) (fun _ => rfl) fun _ => rfl
  rw [Scene.goOn, Scene.goOn, hst.same Player.phase fun _ _ => rfl, hdestination]
  split
  · exact hcleared.enter s.player.destination
  · exact ⟨rfl, hst.step⟩

theorem awaken (hst : InStep L k k' s t) : BothInStep L k k' (s.awaken h) (t.awaken h) := by
  have hresume : BothInStep L k k' (s.resume h) (t.resume h) := by
    obtain ⟨ready, s₁, t₁, hs, ht, hpolled⟩ := (hst.pollWait (h := h)).exists_eq
    rw [Scene.resume, Scene.resume, hs, ht]
    cases ready with
    | false => exact ⟨rfl, hpolled⟩
    | true => exact hpolled.goOn
  rw [Scene.awaken, Scene.awaken, hst.same Player.phase fun _ _ => rfl]
  cases s.player.phase with
  | idle | choosing | entered | running => exact ⟨rfl, hst⟩
  | waiting | echoing => exact hresume

/-- Players in step stay in step within their session. -/
theorem apply (hst : InStep L k k' s t) {op : Operation} (hop : op.stays = true) :
    InStep L k k' (s.apply h op) (t.apply h op) := by
  rw [apply_eq_proceed, apply_eq_proceed]
  cases op with
  | start | startSource | setLog => cases hop
  | update => exact hst.awaken.proceed
  | choose choice => exact (hst.pick choice).proceed
  | goTo label => exact (hst.enter label).proceed
  | finish => exact hst.finish

/-- Players in step stay in step through the operations of their session. -/
theorem after (hst : InStep L k k' s t) {ops : List Operation}
    (hops : ∀ op ∈ ops, op.stays = true) : InStep L k k' (s.after h ops) (t.after h ops) := by
  induction ops generalizing s t with
  | nil => exact hst
  | cons op ops ih =>
      obtain ⟨hop, hops⟩ := List.forall_mem_cons.mp hops
      exact ih (hst.apply hop) hops

/-- Players in step have made the same calls, but for the lines asked about. -/
theorem calls (hst : InStep L k k' s t) : ∃ calls,
    s.calls = k.filterMap Event.call? ++ calls ∧
      t.calls = k'.filterMap Event.call? ++ calls.map (·.mapLine L.line) := by
  have hcalls (s : Scene σ ω) : s.calls = s.events.filterMap Event.call? := rfl
  obtain ⟨more, hs, ht⟩ := hst.events
  refine ⟨more.filterMap Event.call?, ?_, ?_⟩
  · rw [hcalls, hs, List.filterMap_append]
  · rw [hcalls, ht, List.filterMap_append, List.filterMap_map, List.map_filterMap]
    refine congrArg (_ ++ List.filterMap · more) (funext fun e => ?_)
    cases e <;> rfl

end InStep

end Scene

end DialogScript
