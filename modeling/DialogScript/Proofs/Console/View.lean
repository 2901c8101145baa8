import DialogScript.Console.Play
import DialogScript.Proofs.Player.Restart
import DialogScript.Proofs.Player.View

/-!
# Venues seen through a view

A dialog takes the same course at two venues if one is seen as the other: the hosts answer alike,
and printing and resting change them alike. What has happened to the players before does not matter.
A terminal that has been in use is seen in this way as a new one, since what is printed is put
behind what is there, and pauses count from now.

## Main definitions

* `Venue.View`: a view of a venue
* `Host.View.Shows`: scenes with the same player and host in the view
* `Terminal.behind`, `Terminal.withRoom`: a terminal as it is if another has been in use before, and
  one with room for so many more bytes
* `Console.inUse`: a new terminal seen as one in use

## Main results

* `Host.View.Shows.apply`, `Host.View.Shows.startSource`: operations and starts in the view
* `Venue.View.play_shows`: a dialog takes the same course at both venues
-/

namespace DialogScript

variable {σ τ ω ν ε : Type}

/-- A view of a venue: nothing that a player does at the other host is left out. -/
structure Venue.View (v : Venue σ ω) (w : Venue τ ν) where
  ofHost : v.host.View w.host
  jumps : ofHost.jumps = true
  polls : ofHost.KeepsPolls
  print : ∀ text x, w.print text (ofHost.state x) = (v.print text x).map id ofHost.state
  rest : ∀ x, w.rest (ofHost.state x) = ofHost.state (v.rest x)

/-- One scene has the player and the host of another as they are seen through a view. -/
structure Host.View.Shows {h : Host σ ω} {g : Host τ ν} (V : h.View g) (s : Scene σ ω)
    (t : Scene τ ν) : Prop where
  player : t.player = V.player s.player
  host : t.host = V.state s.host

namespace Host.View.Shows

variable {h : Host σ ω} {g : Host τ ν} {V : h.View g} {s : Scene σ ω} {t : Scene τ ν}

theorem activity (hst : V.Shows s t) : t.player.activity = s.player.activity := by
  rw [hst.player]
  rfl

theorem choiceTexts (hst : V.Shows s t) : t.player.choiceTexts = s.player.choiceTexts := by
  rw [hst.player]
  rfl

theorem log (hst : V.Shows s t) : t.player.log = s.player.log := by
  rw [hst.player]
  rfl

/-- The same operation shows the same. -/
theorem apply (hst : V.Shows s t) (hjumps : V.jumps = true) (hpolls : V.KeepsPolls)
    (op : Operation) : V.Shows (s.apply h op) (t.apply g op) := by
  have hsame := Scene.equalSince_apply (h := g) (s := V.scene s) hst.player hst.host op
  rw [apply_scene hjumps hpolls] at hsame
  exact ⟨hsame.player, hsame.host⟩

/-- Players with the same loader, configuration and log show the same once they have started the
same dialog. -/
theorem startSource {actor dialog label source : String} (hjumps : V.jumps = true)
    (hpolls : V.KeepsPolls) (hloader : t.player.loader = s.player.loader)
    (hconfig : t.player.config = s.player.config) (hlog : t.player.log = s.player.log)
    (hhost : t.host = V.state s.host)
    (hstart : (s.startSource h actor dialog label source).1 = none) :
    (t.startSource g actor dialog label source).1 = none ∧
      V.Shows (s.startSource h actor dialog label source).2
        (t.startSource g actor dialog label source).2 := by
  let op : Operation := .startSource actor dialog label source
  have hanswer (s' : Scene τ ν) : s'.answer g op = none := by
    rw [Option.eq_none_iff_forall_ne_some]
    intro e he
    obtain ⟨e', hread, -⟩ := Scene.startSource_eq_some_iff.mp he
    rw [Scene.startSource_eq_some_iff.mpr ⟨e', hread, rfl⟩] at hstart
    cases hstart
  have hconfig' : (V.scene s).player.config = s.player.config := if_pos hjumps
  have hsame := Scene.equalSince_startSource (h := g) (s := V.scene s) hloader
    (hconfig.trans hconfig'.symm) (congrArg Log.purgeTempOnce hlog) hhost (hanswer _)
  have happly : ((V.scene s).startSource g actor dialog label source).2 =
      V.scene (s.startSource h actor dialog label source).2 := apply_scene hjumps hpolls s op
  rw [happly] at hsame
  exact ⟨hanswer t, hsame.player, hsame.host⟩

end Host.View.Shows

namespace Venue.View

open Console

variable {v : Venue σ ω} {w : Venue τ ν} (V : v.View w) (editor : LineEditor ε)

theorem printLines_state (x : σ) (lines : List String) : w.printLines (V.ofHost.state x) lines =
    (v.printLines x lines).map id V.ofHost.state := by
  induction lines generalizing x with
  | nil => rfl
  | cons line lines ih =>
      rw [printLines, printLines, V.print]
      rcases v.print line x with ⟨_ | reason, x'⟩
      · exact ih x'
      · rfl

variable {V} {s : Scene σ ω} {t : Scene τ ν}

theorem frame_shows (hst : V.ofHost.Shows s t) : V.ofHost.Shows (v.frame s) (w.frame t) := by
  have hupdate : V.ofHost.Shows (s.update v.host) (t.update w.host) :=
    hst.apply V.jumps V.polls .update
  rw [frame, frame, hupdate.activity]
  split
  · exact ⟨hupdate.player, by rw [hupdate.host, V.rest]⟩
  · exact hupdate

theorem printMenu_shows (hst : V.ofHost.Shows s t) : ∃ t',
    w.printMenu t = ((v.printMenu s).1, t') ∧ V.ofHost.Shows (v.printMenu s).2 t' := by
  have hprint := V.printLines_state s.host (menuLines 1 s.player.choiceTexts)
  rw [printMenu, printMenu, hst.choiceTexts, hst.host, hprint]
  exact ⟨_, rfl, hst.player, rfl⟩

theorem proceed_shows (hst : V.ofHost.Shows s t) : ∃ t',
    w.proceed t = ((v.proceed s).1, t') ∧ V.ofHost.Shows (v.proceed s).2 t' := by
  rw [proceed, proceed, hst.activity]
  cases s.player.activity with
  | idle => exact ⟨t, rfl, hst⟩
  | active => exact ⟨_, rfl, frame_shows hst⟩
  | choosing =>
      obtain ⟨t', hmenu, hshows⟩ := printMenu_shows hst
      dsimp only
      rw [hmenu]
      generalize v.printMenu s = printed at hshows
      rcases printed with ⟨_ | error, s'⟩
      · refine ⟨t', ?_, hshows⟩
        exact congrArg (fun texts => (Turn.asking texts.length, t')) hshows.choiceTexts
      · exact ⟨t', rfl, hshows⟩

theorem answer_shows (hst : V.ofHost.Shows s t) (count : Nat) (reply : Reply) : ∃ t',
    w.answer count reply t = ((v.answer count reply s).1, t', (v.answer count reply s).2.2) ∧
      V.ofHost.Shows (v.answer count reply s).2.1 t' := by
  rw [answer, answer]
  cases ChoiceAnswer.ofReply count reply with
  | quit | unclear => exact ⟨t, rfl, hst⟩
  | pick choice text => exact ⟨_, rfl, hst.apply V.jumps V.polls (.choose choice)⟩

/-- One turn at both venues. -/
theorem turn_shows (hst : V.ofHost.Shows s t) (e : ε) (n : Turn) : ∃ t',
    w.turn editor t e n = ((v.turn editor s e n).1, t', (v.turn editor s e n).2.2) ∧
      V.ofHost.Shows (v.turn editor s e n).2.1 t' := by
  rcases n with _ | count | result
  · obtain ⟨t', hproceed, hshows⟩ := proceed_shows hst
    rw [turn, turn, hproceed]
    generalize v.proceed s = proceeded at hshows
    rcases proceeded with ⟨_ | _ | _, s'⟩ <;> exact ⟨t', rfl, hshows⟩
  · rw [turn, turn]
    rcases editor.read prompt e with ⟨error | reply, e'⟩
    · exact ⟨t, rfl, hst⟩
    · obtain ⟨t', hanswer, hshows⟩ := answer_shows hst count reply
      dsimp only
      rw [hanswer]
      generalize v.answer count reply s = answered at hshows
      rcases answered with ⟨n, s', _ | line⟩ <;> exact ⟨t', rfl, hshows⟩
  · exact ⟨t, rfl, hst⟩

/-- A dialog takes the same course at both venues. -/
theorem play_shows {editor : LineEditor ε} {turns : Nat} {n : Turn} {e e' : ε}
    {result : Except Error Console.Outcome} {s' : Scene σ ω} (hst : V.ofHost.Shows s t)
    (hplay : v.play editor turns n s e = some (result, s', e')) :
    ∃ t', w.play editor turns n t e = some (result, t', e') ∧ V.ofHost.Shows s' t' := by
  induction turns generalizing s t n e with
  | zero =>
      rcases n with _ | count | result <;> cases hplay
      exact ⟨t, rfl, hst⟩
  | succ turns ih =>
      obtain ⟨t₁, hturn, hshows⟩ := turn_shows editor hst e n
      rcases n with _ | count | result
      · rw [play_due, hturn]
        exact ih hshows hplay
      · rw [play_asking, hturn]
        exact ih hshows hplay
      · cases hplay
        exact ⟨t, rfl, hst⟩

end Venue.View

/-! ### Terminals in use -/

/-- What is printed in full is put behind what is there. -/
theorem Terminal.printed_of_print {t t' : Terminal} {text : String}
    (hprint : t.print text = (true, t')) :
    t'.printed.toList = t.printed.toList ++ Utf8.toBytes text := by
  rcases t with ⟨printed, _ | capacity, now⟩
  · obtain rfl := (Prod.mk.inj hprint).2
    simp
  · obtain ⟨hroom, rfl⟩ := Prod.mk.inj hprint
    simp [List.take_of_length_le (of_decide_eq_true hroom)]

/-- The terminal as it is if another has been in use before. -/
def Terminal.behind (before t : Terminal) : Terminal where
  printed := before.printed ++ t.printed
  capacity := t.capacity.map (before.printed.size + ·)
  now := before.now + t.now

/-- The terminal with room for so many more bytes. -/
def Terminal.withRoom (t : Terminal) (room : Option Nat) : Terminal :=
  { t with capacity := room.map (t.printed.size + ·) }

/-- A terminal in use is as it is behind itself when it is new. -/
theorem Terminal.withRoom_eq_behind (t : Terminal) (room : Option Nat) :
    t.withRoom room = t.behind { capacity := room } := by
  simp [withRoom, behind]

theorem Terminal.print_behind (before t : Terminal) (text : String) :
    (before.behind t).print text = (t.print text).map id before.behind := by
  rcases t with ⟨printed, _ | capacity, now⟩
  · simp [print, behind, ← Array.toList_inj]
  · have hroom : before.printed.size + capacity - (before.printed.size + printed.size) =
        capacity - printed.size := by omega
    simp [print, behind, hroom, ← Array.toList_inj]

theorem Terminal.deadline_behind (options : ConsoleOptions) (before t : Terminal) (d : Delay) :
    (before.behind t).deadline options d = ⟨before.now + (t.deadline options d).time⟩ := by
  cases d <;> simp [deadline, behind, Deadline.after, Nat.add_assoc]

/-- A new terminal is seen as one in use. -/
def Console.inUse (options : ConsoleOptions) (before : Terminal) :
    (terminal options).View (terminal options) where
  ofHost := {
    state := before.behind
    handle := fun d => ⟨before.now + d.time⟩
    polls := true
    jumps := true
    perform := fun _ _ => rfl
    begin := fun d t => by
      cases d with
      | say actor text =>
          simp [terminal, Terminal.host, Terminal.deadline_behind, Terminal.print_behind]
      | pause | waitFor | waitWhile =>
          simp [terminal, Terminal.host, Terminal.deadline_behind]
    holds := fun _ _ => rfl
    admits := fun _ _ _ _ => rfl }
  jumps := rfl
  polls := ⟨rfl, fun d t => by
    simp [terminal, Terminal.host, Terminal.behind, Deadline.isReady]⟩
  print text t := by
    simp [terminal, Terminal.print_behind]
  rest t := by simp [terminal, Terminal.behind, Nat.add_assoc]

end DialogScript
