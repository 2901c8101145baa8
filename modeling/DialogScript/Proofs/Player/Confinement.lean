import DialogScript.Proofs.Player.Lockstep

/-!
# Facts of other sessions

A session asks the log about its own actor and dialog only. So two logs that answer these questions
alike are as good as each other, although they may hold different entries, and they go on to answer
alike when the session adds to them: what an entry bars does not depend on the log that it comes
into. An entry of another dialog bars nothing in the session, nor does one of another actor, unless
it is of `onceever`.

## Main definitions

* `Log.SameFacts`: logs that bar the same in a session of an actor and a dialog
* `Entry.concerns`: the entry may bar something in such a session
* `Scene.Twins`: scenes whose players differ in nothing but such logs

## Main results

* `Log.sameFacts_insert`, `Log.sameFacts_of_concerns`: logs that are added to, and logs that differ
  in entries of other sessions
* `Scene.twins_after`: twins stay twins within their session
* `Scene.foreign_facts_never_leak`: both, for the calls and all that is kept
-/

namespace DialogScript

/-- In a session of the actor and the dialog, the logs bar the same. -/
def Log.SameFacts (actor dialog : String) (log log' : Log) : Prop :=
  ∀ scope line, log'.contains scope ⟨actor, dialog, line⟩ = log.contains scope ⟨actor, dialog, line⟩

/-- The entry may bar something in a session of the actor and the dialog. -/
def Entry.concerns (actor dialog : String) (e : Entry) : Bool :=
  e.site.dialog = dialog && (e.scope = .onceEver || e.site.actor = actor)

namespace Log

variable {actor dialog : String} {log log' : Log}

/-- Logs that bar the same may both be added to. -/
theorem sameFacts_insert (hfacts : SameFacts actor dialog log log') (e : Entry) :
    SameFacts actor dialog (log.insert e) (log'.insert e) := by
  intro scope line
  rw [contains_insert, contains_insert, hfacts]

/-- An entry that bars something in a session concerns it. -/
theorem concerns_of_matches {e : Entry} {scope : Scope} {line : UInt32}
    (he : e.matches scope ⟨actor, dialog, line⟩ = true) : e.concerns actor dialog = true := by
  simp only [Entry.matches, Bool.and_eq_true, Bool.or_eq_true, decide_eq_true_eq] at he
  obtain ⟨⟨⟨rfl, hdialog⟩, -⟩, hactor⟩ := he
  simpa only [Entry.concerns, Bool.and_eq_true, Bool.or_eq_true, decide_eq_true_eq] using
    ⟨hdialog, hactor⟩

/-- Logs that differ in entries of other sessions bar the same. -/
theorem sameFacts_of_concerns
    (hentries : ∀ e, e.concerns actor dialog = true → (e ∈ log'.entries ↔ e ∈ log.entries)) :
    SameFacts actor dialog log log' := by
  intro scope line
  rw [Bool.eq_iff_iff, contains_iff, contains_iff]
  constructor
  · rintro ⟨e, he, hmatches⟩
    exact ⟨e, (hentries e (concerns_of_matches hmatches)).mp he, hmatches⟩
  · rintro ⟨e, he, hmatches⟩
    exact ⟨e, (hentries e (concerns_of_matches hmatches)).mpr he, hmatches⟩

end Log

variable {σ ω : Type} {h : Host σ ω}

/-- In a session of the actor and the dialog, logs that bar the same. -/
def Host.Likeness.facts (hh : h.LeavesToLog) (actor dialog : String) : h.Likeness where
  line := id
  logs a d log log' := a = actor ∧ d = dialog ∧ Log.SameFacts actor dialog log log'
  admits hlogs scope l x := by
    obtain ⟨rfl, rfl, hfacts⟩ := hlogs
    rw [hh, hh, id, hfacts]
  insert hlogs scope l := ⟨hlogs.1, hlogs.2.1, Log.sameFacts_insert hlogs.2.2 _⟩

namespace Scene

/-- Two scenes differ in nothing but the logs of their players, which are in a session of the actor
and the dialog and bar the same there. -/
structure Twins (actor dialog : String) (s t : Scene σ ω) : Prop where
  session : s.player.actor = actor ∧ s.player.dialog = dialog
  player : t.player = s.player.withLog t.player.log
  host : t.host = s.host
  facts : Log.SameFacts actor dialog s.player.log t.player.log

variable {actor dialog : String}

/-- Twins stay twins within their session, and make the same calls. -/
theorem twins_after (hh : h.LeavesToLog) {s t : Scene σ ω} (htwins : Twins actor dialog s t)
    {ops : List Operation} (hops : ∀ op ∈ ops, op.stays = true) :
    Twins actor dialog (s.after h ops) (t.after h ops) ∧
      ∃ calls, (s.after h ops).calls = s.calls ++ calls ∧
        (t.after h ops).calls = t.calls ++ calls := by
  let L := Host.Likeness.facts hh actor dialog
  have hplayer (log : Log) (p : Player ω) : L.player log p = p.withLog log :=
    congrArg (fun script => { p with script, log }) (Script.mapLines_id p.script)
  obtain ⟨⟨hactor, hdialog⟩, hplayers, hhost, hfacts⟩ := htwins
  have hstart : InStep L s.events t.events s t := by
    refine ⟨⟨t.player.log, ⟨hactor, hdialog, hfacts⟩, ?_⟩, hhost, [], ?_, ?_⟩
    · rwa [hplayer]
    · exact (List.append_nil _).symm
    · exact (List.append_nil _).symm
  have hst := hstart.after hops
  obtain ⟨calls, hs, ht⟩ := hst.calls
  obtain ⟨⟨log, ⟨hactor, hdialog, hfacts⟩, hplayers⟩, hhost, -⟩ := hst
  rw [hplayer] at hplayers
  have hlog : (t.after h ops).player.log = log := by rw [hplayers, Player.withLog]
  have hcalls : calls.map (·.mapLine L.line) = calls := List.map_id'' Call.mapLine_id calls
  rw [hcalls] at ht
  exact ⟨⟨⟨hactor, hdialog⟩, hlog ▸ hplayers, hhost, hlog ▸ hfacts⟩, calls, hs, ht⟩

/-- Facts of other actors and dialogs do not leak into a session. If the host leaves the once family
to the log, players that differ in nothing but logs that bar the same in their session make the same
calls whatever is done in it, and differ in nothing but such logs then. Entries of other dialogs,
and those of other actors that are not of `onceever`, may be added to a log or taken from it. -/
theorem foreign_facts_never_leak (hh : h.LeavesToLog) (s : Scene σ ω) :
    (∀ t, Twins s.player.actor s.player.dialog s t → ∀ ops, (∀ op ∈ ops, op.stays = true) →
      Twins s.player.actor s.player.dialog (s.after h ops) (t.after h ops) ∧
        ∃ calls, (s.after h ops).calls = s.calls ++ calls ∧
          (t.after h ops).calls = t.calls ++ calls) ∧
      ∀ log : Log, (∀ e, e.concerns s.player.actor s.player.dialog = true →
          (e ∈ log.entries ↔ e ∈ s.player.log.entries)) →
        ∀ ops, (∀ op ∈ ops, op.stays = true) →
          let t : Scene σ ω := { s with player := s.player.withLog log }
          Twins s.player.actor s.player.dialog (s.after h ops) (t.after h ops) ∧
            (t.after h ops).calls = (s.after h ops).calls := by
  refine ⟨fun t htwins ops hops => twins_after hh htwins hops, fun log hentries ops hops => ?_⟩
  intro t
  have htwins : Twins s.player.actor s.player.dialog s t :=
    ⟨⟨rfl, rfl⟩, rfl, rfl, Log.sameFacts_of_concerns hentries⟩
  obtain ⟨hafter, calls, hs, ht⟩ := twins_after hh htwins hops
  exact ⟨hafter, ht.trans hs.symm⟩

/-- An entry of `onceever` bars the same whoever made it, and the entries of another actor or of
another dialog bar nothing: of two statements on a line, the one under `once` is run. -/
theorem foreign_facts_of_two_actors :
    let p : Player Unit := {
      loader := fun name => .error (.notFound name), log := ⟨[⟨.onceEver, ⟨"b", "d", 2⟩⟩]⟩,
      script := ⟨[⟨"s", [⟨.code "x", [⟨.scope .onceEver, 2⟩]⟩,
        ⟨.say "a" "y", [⟨.scope .once, 2⟩]⟩]⟩]⟩, actor := "a", dialog := "d" }
    let s : Scene Unit Unit := { player := p, host := () }
    let t : Scene Unit Unit :=
      { s with player := p.withLog ⟨[⟨.onceEver, ⟨"a", "d", 2⟩⟩]⟩ }
    let log : Log :=
      ⟨[⟨.once, ⟨"b", "d", 2⟩⟩, ⟨.onceEver, ⟨"b", "d", 2⟩⟩, ⟨.once, ⟨"a", "e", 2⟩⟩]⟩
    let t' : Scene Unit Unit := { s with player := p.withLog log }
    let ops := [Operation.goTo "s", Operation.update]
    (Twins "a" "d" s t ∧
      Twins "a" "d" (s.after Host.instant ops) (t.after Host.instant ops)) ∧
      (t'.after Host.instant ops).calls = (s.after Host.instant ops).calls ∧
        .delay (.say "a" "y") () ∈ (s.after Host.instant ops).calls := by
  intro p s t log t' ops
  have hh : Host.instant.LeavesToLog := fun _ _ _ _ => rfl
  have hops : ∀ op ∈ ops, op.stays = true := by decide
  have htwins : Twins "a" "d" s t := by
    refine ⟨⟨rfl, rfl⟩, rfl, rfl, fun scope line => ?_⟩
    cases scope <;> simp [s, t, p, Player.withLog, Log.contains, Entry.matches]
  have hentries : ∀ e, e.concerns "a" "d" = true →
      (e ∈ log.entries ↔ e ∈ s.player.log.entries) := by
    intro e he
    have hforeign : e ≠ ⟨.once, ⟨"b", "d", 2⟩⟩ ∧ e ≠ ⟨.once, ⟨"a", "e", 2⟩⟩ := by
      constructor <;> rintro rfl <;> exact absurd he (by decide)
    simp [log, s, p, hforeign]
  obtain ⟨htwice, hlogs⟩ := foreign_facts_never_leak hh s
  exact ⟨⟨htwins, (htwice t htwins ops hops).1⟩, (hlogs log hentries ops hops).2, by decide +kernel⟩

end Scene

end DialogScript
