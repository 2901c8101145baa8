import DialogScript.CommandLine.Run
import DialogScript.Proofs.Console.Conversation
import DialogScript.Proofs.Console.View
import DialogScript.Proofs.FileTree
import DialogScript.Proofs.Log.Snapshot

/-!
# Runs one after the other

The file for the condition log makes one player of many. A run that succeeds loads the log, plays
its dialog with a new player on a new terminal, and saves the log as the last thing it does. A
player who is kept instead has nothing left of the sessions before but the log, and the log that is
loaded is the one that was saved; so it plays every dialog as the run does. A run that fails writes
no file.

## Main definitions

* `Invocation`, `Invocation.report`: an invocation of the program, and what it leaves behind
* `Invocation.Plays`, `Invocation.Succeeds`: it plays a dialog, and it succeeds
* `Invocation.sit`, `sittings`: the same dialogs, played by one player who is kept
* `Report.Matches`: a run and a sitting show the same and leave the same log

## Main results

* `files_of_report`: a run that fails leaves the files as they are
* `Invocation.sit_of_report`: what a run plays, a player with the same log plays too
* `runs_as_one_player`: successive runs show what one player shows
-/

namespace DialogScript.CommandLine

variable {ε : Type}

/-- An invocation of the program. -/
structure Invocation (ε : Type) where
  desk : Desk ε
  /-- How many turns there may be at the console. -/
  turns : Nat
  arguments : List String
  /-- The files that the invocation finds. -/
  files : FileTree

/-- A dialog that has been played by a player who is kept. -/
structure Sitting where
  outcome : Console.Outcome
  /-- The bytes printed meanwhile. -/
  printed : List UInt8
  stage : Console.Stage

namespace Invocation

/-- What the invocation leaves behind. -/
def report (i : Invocation ε) : Option Report := runAt i.desk i.turns i.arguments i.files

/-- The invocation plays a dialog, with given flags, and keeps the condition log at a path. -/
def Plays (path : String) (denyCode noParrot : Bool) (i : Invocation ε) : Prop :=
  ∃ dialog o, plan i.arguments = .openFile dialog o ∧ o.dump = false ∧ o.states = some path ∧
    o.denyCode = denyCode ∧ o.noParrot = noParrot

/-- The invocation succeeds. -/
def Succeeds (i : Invocation ε) (r : Report) : Prop := i.report = some r ∧ r.code = 0

/-- The dialog of the invocation, started and played at its desk with a player who is there
already. -/
def sit (i : Invocation ε) (s : Console.Stage) : Option Sitting := do
  let .openFile dialog o := plan i.arguments | none
  let .ok content := i.files.read dialog | none
  let .ok editor := i.desk.opened | none
  let (none, started) := o.start dialog (sourceText content)
    { s with host := s.host.withRoom i.desk.room } | none
  let (.ok outcome, s', _) ← Console.play o.console i.desk.editor i.turns .due started editor
    | none
  return { outcome, printed := s'.host.printed.toList.drop s.host.printed.size, stage := s' }

end Invocation

/-- The dialogs of invocations, played one after the other with a player who is kept, up to the
first that does not come to its end. -/
def sittings (s : Console.Stage) : List (Invocation ε) → List Sitting
  | [] => []
  | i :: rest =>
    match i.sit s with
    | none => []
    | some x => x :: sittings x.stage rest

/-- A new player on a terminal of its own. -/
def newStage (denyCode noParrot : Bool) : Console.Stage where
  player := Options.player { denyCode, noParrot } {}
  host := {}

/-- The run has printed what the sitting has, and a line more if the user has left; and the file at
the path holds the log that the sitting has left. -/
structure Report.Matches (path : String) (r : Report) (x : Sitting) : Prop where
  output : r.output = String.ofList (Utf8.decodeLossy
    (x.printed ++ Utf8.toBytes (if x.outcome = .quit then abandonedLine else "")))
  log : r.files.read path = .ok x.stage.player.log.toBytes

/-! ### Reports -/

/-- A text of the program itself is printed in full, or the run is broken off. -/
theorem Report.telling_cases (t : Terminal) (text messages : String) (files : FileTree)
    (next : String → Report) :
    (∃ t', t.print text = (true, t') ∧
      Report.telling t text messages files next = next t'.output) ∨
    ∃ output, Report.telling t text messages files next = ⟨101, output, messages, files⟩ := by
  rw [telling]
  rcases t.print text with ⟨_ | _, t'⟩
  · exact .inr ⟨_, rfl⟩
  · exact .inl ⟨t', rfl, rfl⟩

theorem Report.files_telling {t : Terminal} {text messages : String} {files : FileTree}
    {next : String → Report}
    (hnext : ∀ output, (next output).code ≠ 0 → (next output).files = files)
    (hcode : (Report.telling t text messages files next).code ≠ 0) :
    (Report.telling t text messages files next).files = files := by
  rcases telling_cases t text messages files next with ⟨t', -, heq⟩ | ⟨output, heq⟩
  · rw [heq] at hcode ⊢
    exact hnext _ hcode
  · rw [heq]

theorem Report.files_played {o : Options} {messages : String} {files : FileTree}
    {s : Console.Stage} {result : Except Error Console.Outcome}
    (hcode : (Report.played o messages files s result).code ≠ 0) :
    (Report.played o messages files s result).files = files := by
  cases result with
  | error e => rfl
  | ok outcome =>
      refine files_telling (fun output => ?_) hcode
      cases saveFinalLog files s.player.log o.states with
      | error f => exact fun _ => rfl
      | ok files => exact fun hcode => absurd rfl hcode

theorem files_playFile {desk : Desk ε} {turns : Nat} {path : String} {o : Options}
    {source : String} {files : FileTree} {r : Report}
    (hplay : playFile desk turns path o source files = some r) (hcode : r.code ≠ 0) :
    r.files = files := by
  rw [playFile] at hplay
  split at hplay
  · cases hplay
    rfl
  · split at hplay
    · cases hplay
      rfl
    · obtain ⟨⟨result, s, editor⟩, -, heq⟩ := Option.bind_eq_some_iff.mp hplay
      obtain rfl := Option.some.inj heq
      exact Report.files_played hcode

/-- A run that fails leaves the files as they are. -/
theorem files_of_report {i : Invocation ε} {r : Report} (hreport : i.report = some r)
    (hcode : r.code ≠ 0) : r.files = i.files := by
  rw [Invocation.report, runAt] at hreport
  cases hplan : plan i.arguments with
  | tell text =>
      simp only [hplan, Option.some.injEq] at hreport
      subst hreport
      exact Report.files_telling (fun output hcode => absurd rfl hcode) hcode
  | refuse text e =>
      simp only [hplan, Option.some.injEq] at hreport
      subst hreport
      exact Report.files_telling (fun output _ => rfl) hcode
  | openFile path o =>
      simp only [hplan] at hreport
      split at hreport
      · cases hreport
        rfl
      · split at hreport
        · split at hreport
          · cases hreport
            rfl
          · obtain rfl := Option.some.inj hreport
            exact Report.files_telling (fun output hcode => absurd rfl hcode) hcode
        · exact files_playFile hreport hcode

/-! ### Runs that succeed -/

/-- A run that succeeds has told if the user has left, and saved the log. -/
theorem Report.of_played {o : Options} {messages : String} {files : FileTree} {s : Console.Stage}
    {result : Except Error Console.Outcome}
    (hcode : (Report.played o messages files s result).code = 0) :
    ∃ outcome, result = .ok outcome ∧
      (Report.played o messages files s result).output = String.ofList (Utf8.decodeLossy
        (s.host.printed.toList ++ Utf8.toBytes (if outcome = .quit then abandonedLine else ""))) ∧
      saveFinalLog files s.player.log o.states =
        .ok (Report.played o messages files s result).files := by
  cases result with
  | error e => cases hcode
  | ok outcome =>
      refine ⟨outcome, rfl, ?_⟩
      rw [played] at hcode ⊢
      generalize (if outcome = .quit then abandonedLine else "") = text at hcode ⊢
      rcases telling_cases s.host text messages files _ with ⟨t, hprint, heq⟩ | ⟨output, heq⟩
      · rw [heq] at hcode ⊢
        rw [← Terminal.printed_of_print hprint]
        cases hsave : saveFinalLog files s.player.log o.states with
        | error f =>
            rw [hsave] at hcode
            cases hcode
        | ok saved => exact ⟨rfl, rfl⟩
      · rw [heq] at hcode
        cases hcode

theorem Options.stage_eq_ok_iff {o : Options} {path source : String} {t : Terminal} {log : Log}
    {s : Console.Stage} : o.stage path source t log = .ok s ↔
      o.start path source { player := o.player log, host := t } = (none, s) := by
  rw [stage]
  rcases o.start path source { player := o.player log, host := t } with ⟨_ | e, s'⟩ <;> simp

/-- A run that succeeds has loaded the log, played the dialog to its end and saved the log. -/
theorem of_playFile {desk : Desk ε} {turns : Nat} {path : String} {o : Options} {source : String}
    {files : FileTree} {r : Report} (hplay : playFile desk turns path o source files = some r)
    (hcode : r.code = 0) :
    ∃ log started editor outcome s editor', initialLog files o.states = .ok log ∧
      o.start path source { player := o.player log, host := { capacity := desk.room } } =
        (none, started) ∧
      desk.opened = .ok editor ∧
      Console.play o.console desk.editor turns .due started editor =
        some (.ok outcome, s, editor') ∧
      r.output = String.ofList (Utf8.decodeLossy
        (s.host.printed.toList ++ Utf8.toBytes (if outcome = .quit then abandonedLine else ""))) ∧
      saveFinalLog files s.player.log o.states = .ok r.files := by
  rw [playFile] at hplay
  split at hplay
  · cases hplay
    cases hcode
  · rename_i started hstarted
    split at hplay
    · cases hplay
      cases hcode
    · rename_i editor hopened
      obtain ⟨⟨result, s, editor'⟩, hplayed, heq⟩ := Option.bind_eq_some_iff.mp hplay
      obtain rfl := Option.some.inj heq
      obtain ⟨outcome, rfl, houtput, hsave⟩ := Report.of_played hcode
      cases hlog : initialLog files o.states with
      | error f =>
          rw [hlog] at hstarted
          cases hstarted
      | ok log =>
          rw [hlog] at hstarted
          exact ⟨log, started, editor, outcome, s, editor', rfl,
            Options.stage_eq_ok_iff.mp hstarted, hopened, hplayed, houtput, hsave⟩

/-! ### The player who is kept -/

/-- A new player and one who is kept with the same log start a dialog alike. What the one shows on
its new terminal, the other shows behind all that has been printed. -/
theorem Options.start_shows {o : Options} {path source : String} {room : Option Nat}
    {s started : Console.Stage} (hconfig : s.player.config = o.config)
    (hloader : s.player.loader = Loader.ofDialogs [])
    (hstart : o.start path source
      { player := o.player s.player.log, host := { capacity := room } } = (none, started)) :
    ∃ seated, o.start path source { s with host := s.host.withRoom room } = (none, seated) ∧
      (Console.inUse o.console s.host).ofHost.Shows started seated ∧
      seated.player.config = o.config ∧ seated.player.loader = Loader.ofDialogs [] := by
  let V := Console.inUse o.console s.host
  let new : Console.Stage := { player := o.player s.player.log, host := { capacity := room } }
  let s₁ : Console.Stage := { s with host := s.host.withRoom room }
  let op : Operation := .startSource o.actor (dialogName path) o.label source
  have hnone : (o.start path source new).1 = none := congrArg Prod.fst hstart
  have hshows := Host.View.Shows.startSource (V := V.ofHost) (s := new) (t := s₁) V.jumps V.polls
    hloader hconfig rfl (s.host.withRoom_eq_behind room) hnone
  have hsettings := Scene.settings_apply (Terminal.host o.console) s₁ op
  refine ⟨(o.start path source s₁).2, Prod.ext hshows.1 rfl, ?_, hsettings.1.trans hconfig,
    hsettings.2.trans hloader⟩
  obtain rfl : (o.start path source new).2 = started := congrArg Prod.snd hstart
  exact hshows.2

/-- What a run plays, a player with the log that the run loads plays too. -/
theorem Invocation.sit_of_report {i : Invocation ε} {r : Report} {dialog : String} {o : Options}
    {s : Console.Stage} (hplan : plan i.arguments = .openFile dialog o) (hdump : o.dump = false)
    (hsucceeds : i.Succeeds r) (hlog : initialLog i.files o.states = .ok s.player.log)
    (hconfig : s.player.config = o.config) (hloader : s.player.loader = Loader.ofDialogs []) :
    ∃ x, i.sit s = some x ∧
      r.output = String.ofList (Utf8.decodeLossy
        (x.printed ++ Utf8.toBytes (if x.outcome = .quit then abandonedLine else ""))) ∧
      saveFinalLog i.files x.stage.player.log o.states = .ok r.files ∧
      x.stage.player.config = o.config ∧ x.stage.player.loader = Loader.ofDialogs [] := by
  obtain ⟨hreport, hcode⟩ := hsucceeds
  rw [report, runAt] at hreport
  simp only [hplan, hdump] at hreport
  cases hread : i.files.read dialog with
  | error e =>
      simp only [hread] at hreport
      cases hreport
      cases hcode
  | ok content =>
      simp only [hread, Bool.false_eq_true, if_false] at hreport
      obtain ⟨log, started, editor, outcome, s', editor', hlog', hstart, hopened, hplay, houtput,
        hsave⟩ := of_playFile hreport hcode
      obtain rfl := Except.ok.inj (hlog'.symm.trans hlog)
      obtain ⟨seated, hseated, hshows, hconfig', hloader'⟩ :=
        Options.start_shows hconfig hloader hstart
      obtain ⟨kept, hkept, hshown⟩ := Venue.View.play_shows hshows hplay
      have hhost : kept.host = s.host.behind s'.host := hshown.host
      have hprinted : kept.host.printed.toList.drop s.host.printed.size =
          s'.host.printed.toList := by simp [hhost, Terminal.behind]
      obtain ⟨menus, htalk⟩ := Venue.conversation_of_play hkept
      let x : Sitting := { outcome, printed := s'.host.printed.toList, stage := kept }
      have hsit : i.sit s = some x := by
        have hkept : Console.play o.console i.desk.editor i.turns .due seated editor =
          some (.ok outcome, kept, editor') := hkept
        simp [sit, hplan, hread, hopened, hseated, hkept, hprinted, x]
      exact ⟨x, hsit, houtput, hshown.log ▸ hsave, htalk.settings.1.trans hconfig',
        htalk.settings.2.trans hloader'⟩

/-! ### Runs one after the other -/

/-- What is saved is loaded by the next run. -/
theorem initialLog_of_read {files : FileTree} {path : String} {log : Log} (hfits : log.Fits)
    (hread : files.read path = .ok log.toBytes) : initialLog files (some path) = .ok log := by
  rw [initialLog, if_pos (FileTree.has_of_read hread), FileTree.loadLog_of_read hread,
    Log.ofSaved_toBytes hfits]
  rfl

theorem read_of_saveFinalLog {files saved : FileTree} {path : String} {log : Log}
    (hsave : saveFinalLog files log (some path) = .ok saved) :
    saved.read path = .ok log.toBytes := by
  rw [saveFinalLog] at hsave
  cases hsaved : files.saveLog path log with
  | error e =>
      rw [hsaved] at hsave
      cases hsave
  | ok tree =>
      rw [hsaved] at hsave
      cases hsave
      exact FileTree.read_of_saveLog hsaved

/-- Successive invocations that succeed show what a player shows whose log the first one loads. -/
theorem matches_sittings {path : String} {denyCode noParrot : Bool}
    {invocations : List (Invocation ε)} {reports : List Report} {s : Console.Stage}
    (hplays : ∀ i ∈ invocations, i.Plays path denyCode noParrot)
    (hsucceed : List.Forall₂ Invocation.Succeeds invocations reports)
    (hfollow : ∀ k r next, reports[k]? = some r → invocations[k + 1]? = some next →
      next.files.read path = r.files.read path)
    (hfits : ∀ x ∈ sittings s invocations.dropLast, x.stage.player.log.Fits)
    (hlog : ∀ i ∈ invocations.head?, initialLog i.files (some path) = .ok s.player.log)
    (hconfig : s.player.config = Options.config { denyCode, noParrot })
    (hloader : s.player.loader = Loader.ofDialogs []) :
    List.Forall₂ (Report.Matches path) reports (sittings s invocations) := by
  induction hsucceed generalizing s with
  | nil => exact .nil
  | @cons i r rest reports hsucceeds _ ih =>
      obtain ⟨dialog, o, hplan, hdump, hstates, rfl, rfl⟩ := hplays i List.mem_cons_self
      obtain ⟨x, hsit, houtput, hsave, hconfig', hloader'⟩ :=
        Invocation.sit_of_report hplan hdump hsucceeds (hstates ▸ hlog i rfl) hconfig hloader
      rw [hstates] at hsave
      have hread := read_of_saveFinalLog hsave
      have hmatch : r.Matches path x := ⟨houtput, hread⟩
      rw [sittings, hsit]
      refine .cons hmatch (ih (fun i hi => hplays i (List.mem_cons_of_mem _ hi))
        (fun k => hfollow (k + 1)) ?_ ?_ hconfig' hloader')
      · intro y hy
        cases rest with
        | nil => cases hy
        | cons next rest =>
            refine hfits y ?_
            rw [List.dropLast_cons_cons, sittings, hsit]
            exact List.mem_cons_of_mem _ hy
      · intro next hnext
        cases rest with
        | nil => cases hnext
        | cons next' rest =>
            obtain rfl := Option.some.inj hnext
            have hfits : x.stage.player.log.Fits := hfits x <| by
              rw [List.dropLast_cons_cons, sittings, hsit]
              exact List.mem_cons_self
            exact initialLog_of_read hfits ((hfollow 0 r _ rfl rfl).trans hread)

/-- Successive runs show what one player shows. Let invocations play any dialogs, starting at any
labels with any actors, with the same flags and the same path for the condition log; let all of them
succeed, let nothing be at the path at first, and let each invocation find there what the one before
has left. Then one player who starts and plays the same dialogs at the same desks, one after the
other, prints each time what the run prints, but for the line about a dialog that the user has left,
and the file at the path holds the player's log after each run, provided that the format has room
for the logs that are loaded again. A run that fails leaves all files as they are. -/
theorem runs_as_one_player (path : String) (denyCode noParrot : Bool) :
    (∀ (invocations : List (Invocation ε)) (reports : List Report),
      (∀ i ∈ invocations, i.Plays path denyCode noParrot) →
      List.Forall₂ Invocation.Succeeds invocations reports →
      (∀ i ∈ invocations.head?, i.files.has path = false) →
      (∀ k r next, reports[k]? = some r → invocations[k + 1]? = some next →
        next.files.read path = r.files.read path) →
      (∀ x ∈ sittings (newStage denyCode noParrot) invocations.dropLast,
        x.stage.player.log.Fits) →
      List.Forall₂ (Report.Matches path) reports
        (sittings (newStage denyCode noParrot) invocations)) ∧
    ∀ (i : Invocation ε) (r : Report), i.report = some r → r.code ≠ 0 → r.files = i.files := by
  refine ⟨fun invocations reports hplays hsucceed habsent hfollow hfits => ?_,
    fun i r hreport hcode => files_of_report hreport hcode⟩
  refine matches_sittings hplays hsucceed hfollow hfits (fun i hi => ?_) rfl rfl
  rw [initialLog, habsent i hi]
  rfl

/-- A choice that may be picked once is offered by the first of two runs only; in the second the
user leaves. A third does not know its option and leaves the files as they are. -/
theorem runs_of_once_choice :
    let source := ":start\n1 \"x\" -> e [once]\n2 \"y\" -> e\n:e\nA: \"h\"\n"
    let log : Log := ⟨[⟨.once, ⟨"player", "d", 2⟩⟩]⟩
    let before : FileTree := { nodes := [(["d.yack"], .file (Utf8.toBytes source))] }
    let after : FileTree := before.put ["p"] (.file log.toBytes)
    let invocation (input : String) (arguments : List String) (files : FileTree) :
      Invocation PipedInput := { desk := .piped input.toList, turns := 12, arguments, files }
    let first := invocation "1\n" ["--states", "p", "d.yack"] before
    let second := invocation "q\n" ["d.yack", "--states", "p"] after
    let third := invocation "" ["--state", "p", "d.yack"] after
    ∃ r r' r'' x x', first.report = some r ∧ r.code = 0 ∧
      r.output = "  1. x\n  2. y\nplayer: x\nA: h\n" ∧ second.report = some r' ∧ r'.code = 0 ∧
      r'.output = "  1. y\n\x1b[2m(dialog abandoned)\x1b[0m\n" ∧
      sittings (newStage false false) [first, second] = [x, x'] ∧ r.Matches "p" x ∧
      r'.Matches "p" x' ∧ third.report = some r'' ∧ r''.code = 1 ∧ r''.files = after := by
  intro source log before after invocation first second third
  have hfirst : first.report.map (fun r => (r.code, r.output, r.files.read "p")) =
      some (0, "  1. x\n  2. y\nplayer: x\nA: h\n", after.read "p") := by decide +kernel
  have hsecond : second.report.map (fun r => (r.code, r.output)) =
      some (0, "  1. y\n\x1b[2m(dialog abandoned)\x1b[0m\n") := by decide +kernel
  have hthird : third.report.map (·.code) = some 1 := by decide +kernel
  obtain ⟨r, hr, hr'⟩ := Option.map_eq_some_iff.mp hfirst
  obtain ⟨r', hs, hs'⟩ := Option.map_eq_some_iff.mp hsecond
  obtain ⟨r'', ht, ht'⟩ := Option.map_eq_some_iff.mp hthird
  simp only [Prod.mk.injEq] at hr' hs'
  obtain ⟨hcode, houtput, hread⟩ := hr'
  obtain ⟨hcode', houtput'⟩ := hs'
  have hplays : ∀ i ∈ [first, second], i.Plays "p" false false := by
    simp only [List.forall_mem_cons]
    exact ⟨⟨"d.yack", { file := some "d.yack", states := some "p" }, rfl, rfl, rfl, rfl, rfl⟩,
      ⟨"d.yack", { file := some "d.yack", states := some "p" }, rfl, rfl, rfl, rfl, rfl⟩, nofun⟩
  have hfollow : ∀ k r₁ next, [r, r'][k]? = some r₁ → [first, second][k + 1]? = some next →
      next.files.read "p" = r₁.files.read "p" := by
    intro k r₁ next hr₁ hnext
    match k with
    | 0 =>
        obtain rfl := Option.some.inj hr₁
        obtain rfl := Option.some.inj hnext
        exact hread.symm
  have hfits : ∀ x ∈ sittings (newStage false false) [first], x.stage.player.log.Fits := by
    have hall : ((sittings (newStage false false) [first]).all
        fun x => decide x.stage.player.log.Fits) = true := by decide +kernel
    simpa using hall
  have habsent : ∀ i ∈ [first, second].head?, i.files.has "p" = false := by
    intro i hi
    obtain rfl := Option.some.inj hi
    decide +kernel
  have hmatch := (runs_as_one_player "p" false false).1 [first, second] [r, r'] hplays
    (.cons ⟨hr, hcode⟩ (.cons ⟨hs, hcode'⟩ .nil)) habsent hfollow hfits
  have hfiles := (runs_as_one_player "p" false false).2 third r'' ht (by rw [ht']; decide)
  generalize sittings (newStage false false) [first, second] = played at hmatch ⊢
  rcases hmatch with _ | ⟨hx, _ | ⟨hx', _ | _⟩⟩
  exact ⟨r, r', r'', _, _, hr, hcode, houtput, hs, hcode', houtput', rfl, hx, hx', ht, ht', hfiles⟩

end DialogScript.CommandLine
