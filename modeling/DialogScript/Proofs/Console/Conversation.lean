import DialogScript.Console.Play
import DialogScript.Proofs.Player.Picking

/-!
# Conversations on a console

A dialog on a console is a sequence of frames and menus. A menu is printed, and lines are read until
one answers it: with the number of a choice, after which the dialog goes on, or with the wish to
leave, which ends the conversation. Printing and reading may fail, which ends it too. Nothing that
happens at a menu touches the player until a choice is picked; and the number that is picked is that
of the line printed with it, whatever the host, the editor and the writer do.

## Main definitions

* `Reply.Leaves`, `Reply.pick?`: a reply that ends the conversation, and one that picks a choice
* `Menu`, `Menu.calls`, `Menu.Left`: a menu with what has been read at it, what the editor is asked
  there, and a menu that the user leaves
* `Venue.Prints`, `LineEditor.Asks`: lines that are printed, and readings up to an answer
* `Venue.Conversation`: frames and menus up to the end

## Main results

* `Venue.conversation_of_play`: what is played is a conversation
* `Venue.Conversation.calls_recorded`, `Venue.Conversation.quit_iff`,
  `Venue.Conversation.stays_at_menu`: the calls of the editor, when the user leaves, and where the
  player is left
* `Venue.conversation_ends_at_menu`: a conversation leaves the player where its result says
-/

namespace DialogScript

open Console

variable {σ ω ε : Type}

/-! ### Replies -/

namespace Reply

/-- The user wants to leave: the line says so, or the input is interrupted or at its end. -/
def Leaves : Reply → Prop
  | line text => trim text.toList = ['q'] ∨ trim text.toList = ['q', 'u', 'i', 't']
  | interrupted | endOfInput => True

/-- The choice among `count` that a line picks, and the line without blanks at its ends. -/
def pick? (count : Nat) : Reply → Option (Nat × String)
  | line text =>
    (ChoiceAnswer.choice? count (trim text.toList)).map (·, String.ofList (trim text.toList))
  | interrupted | endOfInput => none

theorem of_pick? {count k : Nat} {reply : Reply} {text : String}
    (hpick : reply.pick? count = some (k, text)) : ∃ typed, reply = .line typed ∧
      Numeral.unsigned? (trim typed.toList) = some k ∧ 1 ≤ k ∧ k ≤ count ∧
      text = String.ofList (trim typed.toList) := by
  cases reply with
  | line typed =>
      obtain ⟨n, hn, heq⟩ := Option.map_eq_some_iff.mp hpick
      obtain ⟨rfl, rfl⟩ := Prod.mk.inj heq
      obtain ⟨hnumber, hrange⟩ := Option.filter_eq_some_iff.mp hn
      obtain ⟨hpos, hle⟩ := of_decide_eq_true hrange
      exact ⟨typed, rfl, hnumber, hpos, hle, rfl⟩
  | interrupted | endOfInput => cases hpick

/-- A line that asks to leave picks no choice. -/
theorem pick?_of_leaves {count : Nat} {reply : Reply} (hleaves : reply.Leaves) :
    reply.pick? count = none := by
  cases reply with
  | line text => rcases hleaves with hquit | hquit <;> rw [pick?, hquit] <;> rfl
  | interrupted | endOfInput => rfl

/-- The meaning of a reply. -/
theorem ofReply_cases (count : Nat) (reply : Reply) :
    (reply.Leaves ∧ ChoiceAnswer.ofReply count reply = .quit) ∨
    (∃ k text, ¬reply.Leaves ∧ reply.pick? count = some (k, text) ∧
      ChoiceAnswer.ofReply count reply = .pick k text) ∨
    (¬reply.Leaves ∧ reply.pick? count = none ∧ ChoiceAnswer.ofReply count reply = .unclear) := by
  cases reply with
  | line text =>
      by_cases hquit : ChoiceAnswer.isQuit (trim text.toList) = true
      · refine .inl ⟨?_, by simp [ChoiceAnswer.ofReply, hquit]⟩
        simpa [Leaves, ChoiceAnswer.isQuit] using hquit
      · have hleaves : ¬(Reply.line text).Leaves := by
          simpa [Leaves, ChoiceAnswer.isQuit] using hquit
        cases hchoice : ChoiceAnswer.choice? count (trim text.toList) with
        | none =>
            exact .inr (.inr ⟨hleaves, by simp [pick?, hchoice],
              by simp [ChoiceAnswer.ofReply, hquit, hchoice]⟩)
        | some k =>
            exact .inr (.inl ⟨k, String.ofList (trim text.toList), hleaves,
              by simp [pick?, hchoice], by simp [ChoiceAnswer.ofReply, hquit, hchoice]⟩)
  | interrupted | endOfInput => exact .inl ⟨trivial, rfl⟩

end Reply

/-! ### Menus -/

/-- A menu: the scene in which it begins, and what comes of the readings at it. Without a reading it
has not been printed in full. -/
structure Menu (σ ω : Type) where
  scene : Scene σ ω
  answers : List (Except Error Reply)

namespace Menu

variable (m : Menu σ ω)

/-- The lines of the menu. -/
def lines : List String := menuLines 1 m.scene.player.choiceTexts

/-- The choice that is picked in the end, and the line that picks it. -/
def pick? : Option (Nat × String) :=
  match m.answers.getLast? with
  | some (.ok reply) => reply.pick? m.lines.length
  | _ => none

/-- What the editor is asked at the menu: it is told the number of lines before the first reading,
and takes the line that picks a choice into the history. -/
def calls : List EditorCall :=
  if m.answers = [] then []
  else .expect m.lines.length :: m.answers.map (fun _ => .read prompt) ++
    m.pick?.toList.map fun pick => .remember pick.2

/-- A reply that asks to leave comes before any that picks a choice. -/
def Left : Prop :=
  ∃ before reply after, m.answers = before ++ .ok reply :: after ∧ reply.Leaves ∧
    ∀ reply', .ok reply' ∈ before → reply'.pick? m.lines.length = none

end Menu

theorem Console.length_menuLines (n : Nat) (texts : List String) :
    (menuLines n texts).length = texts.length := by
  induction texts generalizing n with
  | nil => rfl
  | cons text texts ih => rw [menuLines, List.length_cons, List.length_cons, ih]

/-- The lines of a menu are numbered one after the other. -/
theorem Console.getElem?_menuLines (n k : Nat) (texts : List String) :
    (menuLines n texts)[k]? = texts[k]?.map (menuLine (n + k)) := by
  induction texts generalizing n k with
  | nil => simp [menuLines]
  | cons text texts ih =>
      cases k with
      | zero => rfl
      | succ k =>
          rw [menuLines, List.getElem?_cons_succ, List.getElem?_cons_succ, ih]
          exact congrArg (fun m => texts[k]?.map (menuLine m)) (by omega)

/-! ### Printing and reading -/

namespace Venue

variable (v : Venue σ ω)

/-- Lines are printed in full one after the other. -/
def Prints : List String → σ → σ → Prop
  | [], host, host' => host' = host
  | line :: lines, host, host' => ∃ next, v.print line host = (none, next) ∧
      Prints lines next host'

variable {v}

theorem printLines_eq_none_iff {lines : List String} {host host' : σ} :
    v.printLines host lines = (none, host') ↔ v.Prints lines host host' := by
  induction lines generalizing host with
  | nil => exact ⟨fun heq => (Prod.mk.inj heq).2.symm, fun heq => by rw [printLines, heq]⟩
  | cons line lines ih =>
      rw [printLines, Prints]
      rcases hprint : v.print line host with ⟨_ | reason, next⟩
      · dsimp only
        rw [ih]
        exact ⟨fun hrest => ⟨next, rfl, hrest⟩, fun ⟨_, heq, hrest⟩ =>
          (Prod.mk.inj heq).2 ▸ hrest⟩
      · refine iff_of_false (by simp) ?_
        rintro ⟨_, heq, -⟩
        cases (Prod.mk.inj heq).1

end Venue

/-- Readings up to an answer: the replies that are none come before it. -/
inductive LineEditor.Asks (editor : LineEditor ε) (count : Nat) :
    ε → List (Except Error Reply) → Except Error Reply → ε → Prop
  | last {e answer e'} (hread : editor.read prompt e = (answer, e')) :
      Asks editor count e [] answer e'
  | again {e reply e₁ before answer e'} (hread : editor.read prompt e = (.ok reply, e₁))
      (hleaves : ¬reply.Leaves) (hpick : reply.pick? count = none)
      (hrest : Asks editor count e₁ before answer e') :
      Asks editor count e (.ok reply :: before) answer e'

namespace Venue

/-- Frames and menus up to the end of a conversation. -/
inductive Conversation (v : Venue σ ω) (editor : LineEditor ε) : Scene σ ω → ε →
    List (Menu σ ω) → Except Error Console.Outcome → Scene σ ω → ε → Prop
  /-- The dialog is over. -/
  | finished {s e} (hidle : s.player.phase = .idle) :
      Conversation v editor s e [] (.ok .finished) s e
  /-- The dialog goes on by a frame. -/
  | frame {s e menus result s' e'} (hactive : s.player.activity = .active)
      (hrest : Conversation v editor (v.frame s) e menus result s' e') :
      Conversation v editor s e menus result s' e'
  /-- A menu cannot be printed. -/
  | unprinted {s e host error} (hphase : s.player.phase = .choosing)
      (hprint : v.printLines s.host (menuLines 1 s.player.choiceTexts) = (some error, host)) :
      Conversation v editor s e [⟨s, []⟩] (.error error) { s with host } e
  /-- A menu is printed, and a reading fails. -/
  | failed {s e host before error e'} (hphase : s.player.phase = .choosing)
      (hprint : v.Prints (menuLines 1 s.player.choiceTexts) s.host host)
      (hasks : editor.Asks s.player.choiceTexts.length
        (editor.expect s.player.choiceTexts.length e) before (.error error) e') :
      Conversation v editor s e [⟨s, before ++ [.error error]⟩] (.error error) { s with host } e'
  /-- A menu is printed, and the user leaves. -/
  | left {s e host before reply e'} (hphase : s.player.phase = .choosing)
      (hprint : v.Prints (menuLines 1 s.player.choiceTexts) s.host host)
      (hasks : editor.Asks s.player.choiceTexts.length
        (editor.expect s.player.choiceTexts.length e) before (.ok reply) e')
      (hleaves : reply.Leaves) :
      Conversation v editor s e [⟨s, before ++ [.ok reply]⟩] (.ok .quit) { s with host } e'
  /-- A menu is printed, and a choice is picked. -/
  | picked {s e host before reply k text e₁ menus result s' e'}
      (hphase : s.player.phase = .choosing)
      (hprint : v.Prints (menuLines 1 s.player.choiceTexts) s.host host)
      (hasks : editor.Asks s.player.choiceTexts.length
        (editor.expect s.player.choiceTexts.length e) before (.ok reply) e₁)
      (hleaves : ¬reply.Leaves)
      (hpick : reply.pick? s.player.choiceTexts.length = some (k, text))
      (hrest : Conversation v editor (Scene.choose v.host { s with host } k)
        (editor.remember text e₁) menus result s' e') :
      Conversation v editor s e (⟨s, before ++ [.ok reply]⟩ :: menus) result s' e'

variable {v : Venue σ ω} {editor : LineEditor ε}

/-! ### What is played -/

theorem activity_eq_choosing_iff {p : Player ω} : p.activity = .choosing ↔ p.phase = .choosing := by
  rw [Player.activity]
  cases p.phase <;> simp [Phase.activity]

theorem activity_eq_idle_iff {p : Player ω} : p.activity = .idle ↔ p.phase = .idle := by
  rw [Player.activity]
  cases p.phase <;> simp [Phase.activity]

/-- What follows when an answer to a number of choices is awaited: readings, and then the end or
the rest of the conversation. -/
def Answered (v : Venue σ ω) (editor : LineEditor ε) (count : Nat) (s : Scene σ ω) (e : ε)
    (result : Except Error Console.Outcome) (s' : Scene σ ω) (e' : ε) : Prop :=
  ∃ before answer e₁, editor.Asks count e before answer e₁ ∧
    match answer with
    | .error error => result = .error error ∧ s' = s ∧ e' = e₁
    | .ok reply => (reply.Leaves ∧ result = .ok .quit ∧ s' = s ∧ e' = e₁) ∨
        ∃ k text menus, ¬reply.Leaves ∧ reply.pick? count = some (k, text) ∧
          Conversation v editor (s.choose v.host k) (editor.remember text e₁) menus result s' e'

/-- What is played is a conversation, or from within a menu the rest of one. -/
theorem conversation_of_play_aux {turns : Nat} {s s' : Scene σ ω} {e e' : ε}
    {result : Except Error Console.Outcome} :
    (v.play editor turns .due s e = some (result, s', e') →
      ∃ menus, Conversation v editor s e menus result s' e') ∧
    ∀ count, v.play editor turns (.asking count) s e = some (result, s', e') →
      Answered v editor count s e result s' e' := by
  induction turns generalizing s e with
  | zero => exact ⟨nofun, nofun⟩
  | succ turns ih =>
      constructor
      · intro hplay
        rw [play_due, turn, proceed] at hplay
        cases hactivity : s.player.activity with
        | idle =>
            simp only [hactivity, play] at hplay
            cases hplay
            exact ⟨[], .finished (activity_eq_idle_iff.mp hactivity)⟩
        | active =>
            simp only [hactivity] at hplay
            obtain ⟨menus, hrest⟩ := ih.1 hplay
            exact ⟨menus, .frame hactivity hrest⟩
        | choosing =>
            have hphase := activity_eq_choosing_iff.mp hactivity
            simp only [hactivity, printMenu] at hplay
            rcases hprint : v.printLines s.host (menuLines 1 s.player.choiceTexts) with
              ⟨_ | error, host⟩
            · simp only [hprint] at hplay
              have hprinted := printLines_eq_none_iff.mp hprint
              obtain ⟨before, answer, e₁, hasks, hend⟩ := ih.2 _ hplay
              cases answer with
              | error error =>
                  obtain ⟨rfl, rfl, rfl⟩ := hend
                  exact ⟨_, .failed hphase hprinted hasks⟩
              | ok reply =>
                  rcases hend with ⟨hleaves, rfl, rfl, rfl⟩ |
                    ⟨k, text, menus, hleaves, hpick, hrest⟩
                  · exact ⟨_, .left hphase hprinted hasks hleaves⟩
                  · exact ⟨_, .picked hphase hprinted hasks hleaves hpick hrest⟩
            · simp only [hprint, play] at hplay
              cases hplay
              exact ⟨_, .unprinted hphase hprint⟩
      · intro count hplay
        rw [play_asking, turn] at hplay
        rcases hread : editor.read prompt e with ⟨error | reply, e₁⟩
        · simp only [hread, play] at hplay
          cases hplay
          exact ⟨[], .error error, e', .last hread, rfl, rfl, rfl⟩
        · simp only [hread, answer] at hplay
          rcases reply.ofReply_cases count with ⟨hleaves, hmeaning⟩ |
            ⟨k, text, hleaves, hpick, hmeaning⟩ | ⟨hleaves, hpick, hmeaning⟩
          · simp only [hmeaning, play] at hplay
            cases hplay
            exact ⟨[], .ok reply, e', .last hread, .inl ⟨hleaves, rfl, rfl, rfl⟩⟩
          · simp only [hmeaning] at hplay
            obtain ⟨menus, hrest⟩ := ih.1 hplay
            exact ⟨[], .ok reply, e₁, .last hread, .inr ⟨k, text, menus, hleaves, hpick, hrest⟩⟩
          · simp only [hmeaning] at hplay
            obtain ⟨before, answer, e₂, hasks, hend⟩ := ih.2 count hplay
            exact ⟨_, answer, e₂, .again hread hleaves hpick hasks, hend⟩

/-- What is played is a conversation. -/
theorem conversation_of_play {turns : Nat} {s s' : Scene σ ω} {e e' : ε}
    {result : Except Error Console.Outcome}
    (hplay : v.play editor turns .due s e = some (result, s', e')) :
    ∃ menus, Conversation v editor s e menus result s' e' := conversation_of_play_aux.1 hplay

/-- A conversation changes neither the configuration of the player nor its loader. -/
theorem Conversation.settings {s s' : Scene σ ω} {e e' : ε} {menus : List (Menu σ ω)}
    {result : Except Error Console.Outcome}
    (htalk : Conversation v editor s e menus result s' e') :
    s'.player.config = s.player.config ∧ s'.player.loader = s.player.loader := by
  induction htalk with
  | finished | unprinted | failed | left => exact ⟨rfl, rfl⟩
  | @frame s e menus result s' e' hactive hrest ih =>
      have hframe : (v.frame s).player = (s.apply v.host .update).player := by
        rw [Venue.frame]
        split <;> rfl
      rw [ih.1, ih.2, hframe]
      exact Scene.settings_apply v.host s .update
  | @picked s e host before reply k text e₁ menus result s' e' _ _ _ _ _ hrest ih =>
      have happly := Scene.settings_apply v.host { s with host } (.choose k)
      exact ⟨ih.1.trans happly.1, ih.2.trans happly.2⟩

/-! ### What the editor is asked -/

/-- The readings up to an answer are all that the editor is asked meanwhile. -/
theorem asks_of_recorded {count : Nat} {x x' : ε × Array EditorCall}
    {before : List (Except Error Reply)} {answer : Except Error Reply}
    (hasks : editor.recorded.Asks count x before answer x') :
    editor.Asks count x.1 before answer x'.1 ∧
      x'.2.toList = x.2.toList ++ (before ++ [answer]).map fun _ => .read prompt := by
  induction hasks with
  | last hread =>
      obtain ⟨rfl, rfl⟩ := Prod.mk.inj hread
      exact ⟨.last rfl, Array.toList_push⟩
  | again hread hleaves hpick _ ih =>
      obtain ⟨hreply, rfl⟩ := Prod.mk.inj hread
      obtain ⟨hasks, hcalls⟩ := ih
      refine ⟨.again (Prod.ext hreply rfl) hleaves hpick hasks, hcalls.trans ?_⟩
      simp

/-- What a printed menu asks the editor, with nothing picked at it. -/
theorem calls_of_unpicked {s : Scene σ ω} {before : List (Except Error Reply)}
    {answer : Except Error Reply}
    (hpick : ∀ reply, answer = .ok reply → reply.pick? s.player.choiceTexts.length = none) :
    Menu.calls ⟨s, before ++ [answer]⟩ =
      .expect s.player.choiceTexts.length :: (before ++ [answer]).map fun _ => .read prompt := by
  have hnone : Menu.pick? ⟨s, before ++ [answer]⟩ = none := by
    rw [Menu.pick?, List.getLast?_concat]
    cases answer with
    | error => rfl
    | ok reply =>
        dsimp only
        rw [Menu.lines, length_menuLines]
        exact hpick reply rfl
  rw [Menu.calls, if_neg (by simp), hnone, Menu.lines, length_menuLines]
  exact List.append_nil _

theorem pick?_of_picked {s : Scene σ ω} {before : List (Except Error Reply)} {reply : Reply}
    {pick : Nat × String} (hpick : reply.pick? s.player.choiceTexts.length = some pick) :
    Menu.pick? ⟨s, before ++ [.ok reply]⟩ = some pick := by
  rw [Menu.pick?, List.getLast?_concat]
  dsimp only
  rwa [Menu.lines, length_menuLines]

namespace Conversation

variable {s s' : Scene σ ω} {e e' : ε} {menus : List (Menu σ ω)}
  {result : Except Error Console.Outcome}

/-- A list of what the editor is asked changes nothing, and it lists what is asked at the menus. -/
theorem calls_recorded {x x' : ε × Array EditorCall}
    (htalk : Conversation v editor.recorded s x menus result s' x') :
    Conversation v editor s x.1 menus result s' x'.1 ∧
      x'.2.toList = x.2.toList ++ menus.flatMap Menu.calls := by
  induction htalk with
  | finished hidle => exact ⟨.finished hidle, (List.append_nil _).symm⟩
  | frame hactive _ ih => exact ⟨.frame hactive ih.1, ih.2⟩
  | unprinted hphase hprint => exact ⟨.unprinted hphase hprint, (List.append_nil _).symm⟩
  | failed hphase hprint hasks =>
      obtain ⟨hasks, hcalls⟩ := asks_of_recorded hasks
      refine ⟨.failed hphase hprint hasks, hcalls.trans ?_⟩
      rw [List.flatMap_singleton, calls_of_unpicked fun _ heq => by cases heq]
      simp [LineEditor.recorded]
  | left hphase hprint hasks hleaves =>
      obtain ⟨hasks, hcalls⟩ := asks_of_recorded hasks
      refine ⟨.left hphase hprint hasks hleaves, hcalls.trans ?_⟩
      rw [List.flatMap_singleton, calls_of_unpicked fun reply heq => ?_]
      · simp [LineEditor.recorded]
      · rw [← Except.ok.inj heq]
        exact Reply.pick?_of_leaves hleaves
  | @picked s x host before reply k text x₁ menus result s' x' hphase hprint hasks hleaves hpick _
      ih =>
      obtain ⟨hasks, hcalls⟩ := asks_of_recorded hasks
      obtain ⟨htalk, hrest⟩ := ih
      refine ⟨.picked hphase hprint hasks hleaves hpick htalk, hrest.trans ?_⟩
      have hmenu : Menu.calls ⟨s, before ++ [.ok reply]⟩ =
          .expect s.player.choiceTexts.length ::
            (before ++ [Except.ok reply]).map (fun _ => .read prompt) ++ [.remember text] := by
        rw [Menu.calls, if_neg (by simp), pick?_of_picked hpick, Menu.lines, length_menuLines]
        rfl
      rw [List.flatMap_cons, hmenu]
      simp [LineEditor.recorded, hcalls]

/-! ### Where the player is left -/

/-- A finished conversation leaves the player without a dialog. -/
theorem idle_of_finished (htalk : Conversation v editor s e menus result s' e')
    (hresult : result = .ok .finished) : s'.player.phase = .idle := by
  induction htalk with
  | finished hidle => exact hidle
  | frame _ _ ih | picked _ _ _ _ _ _ ih => exact ih hresult
  | unprinted | failed | left => cases hresult

/-- Any other end leaves the player as it was when the last menu began. -/
theorem stays_at_menu (htalk : Conversation v editor s e menus result s' e')
    (hresult : result ≠ .ok .finished) : ∃ m, menus.getLast? = some m ∧
      m.scene.player.phase = .choosing ∧ s'.player = m.scene.player := by
  induction htalk with
  | finished => exact absurd rfl hresult
  | frame _ _ ih => exact ih hresult
  | unprinted hphase | failed hphase | left hphase => exact ⟨_, rfl, hphase, rfl⟩
  | picked _ _ _ _ _ _ ih =>
      obtain ⟨m, hlast, hm⟩ := ih hresult
      exact ⟨m, by rw [List.getLast?_cons, hlast]; rfl, hm⟩

end Conversation

/-! ### When the user leaves -/

/-- The replies that come before an answer do not ask to leave, nor do they pick a choice. -/
theorem unclear_of_asks {count : Nat} {e e' : ε} {before : List (Except Error Reply)}
    {answer : Except Error Reply} (hasks : editor.Asks count e before answer e') :
    ∀ reply, .ok reply ∈ before → ¬reply.Leaves ∧ reply.pick? count = none := by
  induction hasks with
  | last => exact fun _ hmem => absurd hmem List.not_mem_nil
  | again _ hleaves hpick _ ih =>
      intro reply hmem
      rcases List.mem_cons.mp hmem with heq | hmem
      · rw [Except.ok.inj heq]
        exact ⟨hleaves, hpick⟩
      · exact ih reply hmem

theorem not_left_of_stays {m : Menu σ ω} (hm : ∀ reply, .ok reply ∈ m.answers → ¬reply.Leaves) :
    ¬m.Left := by
  rintro ⟨before, reply, after, hanswers, hleaves, -⟩
  exact hm reply (hanswers ▸ by simp) hleaves

/-- A printed menu whose last reply does not ask to leave is not left. -/
theorem not_left_of_asks {s : Scene σ ω} {count : Nat} {e e' : ε}
    {before : List (Except Error Reply)} {answer : Except Error Reply}
    (hasks : editor.Asks count e before answer e')
    (hanswer : ∀ reply, answer = .ok reply → ¬reply.Leaves) :
    ¬Menu.Left ⟨s, before ++ [answer]⟩ := by
  refine not_left_of_stays fun reply hmem => ?_
  rcases List.mem_append.mp hmem with hmem | hmem
  · exact (unclear_of_asks hasks reply hmem).1
  · exact hanswer reply (List.mem_singleton.mp hmem).symm

namespace Conversation

variable {s s' : Scene σ ω} {e e' : ε} {menus : List (Menu σ ω)}
  {result : Except Error Console.Outcome}

/-- The conversation ends by leaving exactly if a menu is left. -/
theorem quit_iff (htalk : Conversation v editor s e menus result s' e') :
    result = .ok .quit ↔ ∃ m ∈ menus, m.Left := by
  induction htalk with
  | finished => simp
  | frame _ _ ih => exact ih
  | unprinted => simpa using not_left_of_stays (by simp)
  | failed _ _ hasks => simpa using not_left_of_asks hasks fun _ heq => by cases heq
  | left _ _ hasks hleaves =>
      refine iff_of_true rfl ⟨_, List.mem_singleton_self _, _, _, [], rfl, hleaves, ?_⟩
      rw [Menu.lines, length_menuLines]
      exact fun reply hmem => (unclear_of_asks hasks reply hmem).2
  | @picked s _ _ _ _ _ _ _ _ _ _ _ _ _ hasks hleaves _ _ ih =>
      have hstays : ¬Menu.Left ⟨s, _⟩ :=
        not_left_of_asks hasks fun _ heq => Except.ok.inj heq ▸ hleaves
      rw [ih, List.exists_mem_cons_iff]
      exact (or_iff_right hstays).symm

/-- Every menu begins with a player that offers choices and that its owner can have come to. -/
theorem reached_of_mem (htalk : Conversation v editor s e menus result s' e')
    (hs : Scene.Reached v.host s) :
    ∀ m ∈ menus, Scene.Reached v.host m.scene ∧ m.scene.player.phase = .choosing := by
  induction htalk with
  | finished => exact fun _ hmem => absurd hmem List.not_mem_nil
  | frame _ _ ih =>
      refine ih ?_
      rw [Venue.frame]
      split
      · exact (hs.apply .update).withHost _
      · exact hs.apply .update
  | unprinted hphase | failed hphase | left hphase =>
      intro m hmem
      obtain rfl := List.mem_singleton.mp hmem
      exact ⟨hs, hphase⟩
  | @picked s _ host _ _ k _ _ _ _ _ _ hphase _ _ _ _ _ ih =>
      intro m hmem
      rcases List.mem_cons.mp hmem with rfl | hmem
      · exact ⟨hs, hphase⟩
      · exact ih ((hs.withHost host).apply (.choose k)) m hmem

end Conversation

/-! ### What a number picks -/

theorem of_menu_pick? {m : Menu σ ω} {k : Nat} {line : String} (hpick : m.pick? = some (k, line)) :
    ∃ typed, m.answers.getLast? = some (.ok (.line typed)) ∧
      Numeral.unsigned? (trim typed.toList) = some k ∧ 1 ≤ k ∧ k ≤ m.lines.length ∧
      line = String.ofList (trim typed.toList) := by
  rw [Menu.pick?] at hpick
  split at hpick
  · rename_i reply hlast
    obtain ⟨typed, rfl, hnumber, hpos, hle, hline⟩ := Reply.of_pick? hpick
    exact ⟨typed, hlast, hnumber, hpos, hle, hline⟩
  · cases hpick

/-- A number picks the choice that is printed with it. -/
theorem picks_printed {m : Menu σ ω} (hm : m.scene.player.HoldsChoices)
    (hphase : m.scene.player.phase = .choosing) {k : Nat} (hpos : 1 ≤ k)
    (hle : k ≤ m.lines.length) :
    ∃ i st number text target, m.scene.player.offered[k - 1]? = some i ∧
      m.scene.player.statement? i = some st ∧ st.choice? = some (number, text, target) ∧
      m.scene.player.choiceTexts[k - 1]? = some text ∧
      m.lines[k - 1]? = some s!"  {k}. {text}\n" ∧
      ∀ s : Scene σ ω, s.player = m.scene.player → s.choose v.host k =
        if s.player.parrot then (s.use st).echo v.host text target
        else (s.use st).goTo v.host target := by
  rw [Menu.lines, length_menuLines] at hle
  obtain ⟨i, st, number, text, target, hi, hst, hchoice, htext⟩ := Player.exists_picked hm hpos hle
  have hpicked := (Player.picked?_of_offered hpos hi).trans hst
  refine ⟨i, st, number, text, target, hi, hst, hchoice, htext, ?_, fun s hplayer => ?_⟩
  · rw [Menu.lines, getElem?_menuLines, htext]
    have hk : 1 + (k - 1) = k := by omega
    rw [hk]
    rfl
  · rw [← hplayer] at hphase hpicked
    exact Scene.choose_of_picked hphase hpicked hchoice

/-- A conversation leaves the player where its result says, and a number picks the choice that is
printed with it. Whatever has become of a player, what is played with it is a conversation whose
menus account for all that the editor is asked, in order. If the dialog is over, the player has
none. In every other case it is as it was when the last menu began. The user has left exactly if at
some menu a reply that asks to leave has come before any that picks a choice. At every menu as many
lines are printed as there are choices; a line that picks one names its number, and the choice in
the place of that order, whose text is printed with the number, is the one that picking acts on. -/
theorem conversation_ends_at_menu {s : Scene σ ω} (hs : Scene.Reached v.host s) {turns : Nat}
    {e : ε} {result : Except Error Console.Outcome} {s' : Scene σ ω} {e' : ε}
    {calls : Array EditorCall}
    (hplay : v.play editor.recorded turns .due s (e, #[]) = some (result, s', e', calls)) :
    ∃ menus : List (Menu σ ω), Conversation v editor s e menus result s' e' ∧
      calls.toList = menus.flatMap Menu.calls ∧
      (result = .ok .finished → s'.player.phase = .idle) ∧
      (result ≠ .ok .finished → ∃ m, menus.getLast? = some m ∧
        m.scene.player.phase = .choosing ∧ s'.player = m.scene.player) ∧
      (result = .ok .quit ↔ ∃ m ∈ menus, m.Left) ∧
      ∀ m ∈ menus, m.scene.player.phase = .choosing ∧
        m.lines.length = m.scene.player.choiceTexts.length ∧
        ∀ k line, m.pick? = some (k, line) →
          (∃ typed, m.answers.getLast? = some (.ok (.line typed)) ∧
            Numeral.unsigned? (trim typed.toList) = some k ∧ 1 ≤ k ∧ k ≤ m.lines.length ∧
            line = String.ofList (trim typed.toList)) ∧
          ∃ i st number text target, m.scene.player.offered[k - 1]? = some i ∧
            m.scene.player.statement? i = some st ∧ st.choice? = some (number, text, target) ∧
            m.scene.player.choiceTexts[k - 1]? = some text ∧
            m.lines[k - 1]? = some s!"  {k}. {text}\n" ∧
            ∀ s : Scene σ ω, s.player = m.scene.player → s.choose v.host k =
              if s.player.parrot then (s.use st).echo v.host text target
              else (s.use st).goTo v.host target := by
  obtain ⟨menus, htalk⟩ := conversation_of_play hplay
  obtain ⟨htalk, hcalls⟩ := htalk.calls_recorded
  refine ⟨menus, htalk, by simpa using hcalls, htalk.idle_of_finished, htalk.stays_at_menu,
    htalk.quit_iff, fun m hmem => ?_⟩
  obtain ⟨hreached, hphase⟩ := htalk.reached_of_mem hs m hmem
  refine ⟨hphase, length_menuLines _ _, fun k line hpick => ?_⟩
  obtain ⟨typed, hlast, hnumber, hpos, hle, hline⟩ := of_menu_pick? hpick
  exact ⟨⟨typed, hlast, hnumber, hpos, hle, hline⟩,
    picks_printed (Scene.holdsChoices_of_reached hreached) hphase hpos hle⟩

/-- Of two choices in the places of the numbers one and three the second is picked, after a number
that is not listed; at the next menu the user leaves. -/
theorem conversation_of_two_menus :
    let v := Console.terminal {}
    let source := ":s\nA: \"h\"\n1 \"x\" -> t\n3 \"y\" -> t\n:t\n1 \"z\" -> s"
    let new : Console.Stage := { player := .new fun _ => .ok "", host := {} }
    let s := new.apply v.host (.startSource "a" "d" "s" source)
    let replies : List (Except Error Reply) := [.ok (.line "3"), .ok (.line " 2 "), .ok (.line "q")]
    Scene.Reached v.host s ∧ ∃ result s' e' calls menus,
      v.play LineEditor.scripted.recorded 12 .due s (replies, #[]) =
        some (result, s', e', calls) ∧
      result = .ok .quit ∧
      calls = #[.expect 2, .read prompt, .read prompt, .remember "2", .expect 1, .read prompt] ∧
      Conversation v LineEditor.scripted s replies menus result s' e' ∧
      calls.toList = menus.flatMap Menu.calls ∧ ∃ m ∈ menus, m.Left := by
  intro v source new s replies
  have hs : Scene.Reached v.host s := .apply (.new _ _) _
  let played := v.play LineEditor.scripted.recorded 12 .due s (replies, #[])
  have hresult : played.map (·.1) = some (.ok .quit) := by decide +kernel
  have hcalls : played.map (·.2.2.2) = some #[.expect 2, .read prompt, .read prompt, .remember "2",
      .expect 1, .read prompt] := by decide +kernel
  obtain ⟨⟨result, s', e', calls⟩, hplay, hquit⟩ := Option.map_eq_some_iff.mp hresult
  obtain ⟨menus, htalk, hlisted, -, -, hleft, -⟩ := conversation_ends_at_menu hs hplay
  rw [hplay] at hcalls
  exact ⟨hs, result, s', e', calls, menus, hplay, hquit, Option.some.inj hcalls, htalk, hlisted,
    hleft.mp hquit⟩

end Venue

end DialogScript
