import DialogScript.Proofs.Player.Exchange
import DialogScript.Proofs.Player.Lockstep
import DialogScript.Proofs.Player.View
import DialogScript.Proofs.Script.Reprintable
import Mathlib.Logic.Equiv.Basic

/-!
# Renumbered lines

The line of a condition says which entries of the log bar it, and nothing else. So when the lines of
a script are renumbered, no two of them to the same, and the lines in the log with them, a player
does what it did before. Hence a script in another layout plays the same from an empty log if its
conditions share lines as they did: such a layout is a renumbering.

The two hosts need not be the same machine. Hosts that answer alike are both seen in one joint host,
whose states are the pairs of states from which they answer alike.

## Main definitions

* `Log.mapLines`, `Player.renumbered`: a log and a player with the lines renumbered
* `Host.Alike`, `Host.Alike.joint`: hosts that answer alike, and the host that both are views of
* `Scene.Renumbered`: scenes with renumbered players that the same calls have led to
* `Script.SharesLines`: scripts in two layouts whose conditions share lines alike

## Main results

* `Log.contains_mapLines`, `Log.insert_mapLines`: what a log bars and takes in is renumbered with it
* `Scene.renumbered_after`: renumbered players stay so
* `Script.exists_mapLines_of_sharesLines`: another layout is a renumbering
* `Scene.lines_are_identities`: both, for players that are handled alike
-/

namespace DialogScript

variable {σ τ ω : Type}

/-! ### Renumbered logs -/

/-- The log for other lines. -/
def Log.mapLines (f : UInt32 → UInt32) (log : Log) : Log := ⟨log.entries.map (·.mapLine f)⟩

/-- The player with the lines of its script and its log renumbered. -/
@[simps] def Player.renumbered (f : UInt32 → UInt32) (p : Player ω) : Player ω :=
  { p with script := p.script.mapLines f, log := p.log.mapLines f }

section Injective

variable {f : UInt32 → UInt32} (hf : Function.Injective f)

include hf

theorem Entry.mapLine_injective : Function.Injective (Entry.mapLine f) := by
  rintro ⟨scope, actor, dialog, line⟩ ⟨scope', actor', dialog', line'⟩ heq
  simp only [mapLine, Site.mapLine, Entry.mk.injEq, Site.mk.injEq] at heq
  obtain ⟨hscope, hactor, hdialog, hline⟩ := heq
  rw [hscope, hactor, hdialog, hf hline]

theorem Entry.matches_mapLine (e : Entry) (scope : Scope) (site : Site) :
    (e.mapLine f).matches scope (site.mapLine f) = e.matches scope site := by
  rw [Bool.eq_iff_iff]
  simp only [Entry.matches, Bool.and_eq_true, Bool.or_eq_true, decide_eq_true_eq]
  simp only [Entry.mapLine, Site.mapLine, hf.eq_iff]

/-- What a log bars is renumbered with it. -/
theorem Log.contains_mapLines (log : Log) (scope : Scope) (site : Site) :
    (log.mapLines f).contains scope (site.mapLine f) = log.contains scope site := by
  simp only [Log.contains, Log.mapLines, List.any_map, Function.comp_def,
    Entry.matches_mapLine hf]

/-- An entry is new to a log exactly if it is new when both are renumbered. -/
theorem Log.insert_mapLines (log : Log) (e : Entry) :
    (log.mapLines f).insert (e.mapLine f) = (log.insert e).mapLines f := by
  have hmem : e.mapLine f ∈ (log.mapLines f).entries ↔ e ∈ log.entries :=
    List.mem_map_of_injective (Entry.mapLine_injective hf)
  by_cases he : e ∈ log.entries
  · rw [Log.insert_of_mem he, Log.insert_of_mem (hmem.mpr he)]
  · have hentries : (log.insert e).mapLines f =
        ⟨(log.mapLines f).entries ++ [e.mapLine f]⟩ := by
      rw [Log.mapLines, Log.entries_insert_of_not_mem he, List.map_append, List.map_singleton]
      rfl
    rw [hentries, ← Log.entries_insert_of_not_mem (hmem.not.mpr he)]

end Injective

/-- Lines that are renumbered, no two of them to the same, with the lines of the log. -/
def Host.Likeness.renumbering {h : Host σ ω} (hh : h.LeavesToLog) {f : UInt32 → UInt32}
    (hf : Function.Injective f) : h.Likeness where
  line := f
  logs _ _ log log' := log' = log.mapLines f
  admits hlogs scope l x := by
    rw [hlogs, hh, hh]
    exact congrArg (fun barred => (!barred, x)) (Log.contains_mapLines hf _ scope ⟨_, _, l⟩)
  insert hlogs scope l := by
    rw [hlogs]
    exact Log.insert_mapLines hf _ ⟨scope, _, _, l⟩

/-! ### Hosts that answer alike -/

/-- From states that `R` relates, two hosts give the same answers to everything but the conditions
of the once family, and come to states that `R` relates. -/
structure Host.Alike (R : σ → τ → Prop) (h : Host σ ω) (g : Host τ ω) : Prop where
  perform : ∀ {x y}, R x y → ∀ e, R (h.perform e x) (g.perform e y)
  begin : ∀ {x y}, R x y → ∀ d,
    (g.begin d y).1 = (h.begin d x).1 ∧ R (h.begin d x).2 (g.begin d y).2
  poll : ∀ {x y}, R x y → ∀ handle,
    (g.poll handle y).1 = (h.poll handle x).1 ∧ R (h.poll handle x).2 (g.poll handle y).2
  holds : ∀ {x y}, R x y → ∀ text,
    (g.holds text y).1 = (h.holds text x).1 ∧ R (h.holds text x).2 (g.holds text y).2

namespace Host.Alike

variable {R : σ → τ → Prop} {h : Host σ ω} {g : Host τ ω} (halike : Alike R h g)

/-- The host whose states are the pairs of states from which two hosts answer alike. -/
def joint : Host { x : σ × τ // R x.1 x.2 } ω where
  perform e x := ⟨(h.perform e x.1.1, g.perform e x.1.2), halike.perform x.2 e⟩
  begin d x :=
    ((h.begin d x.1.1).1, ⟨((h.begin d x.1.1).2, (g.begin d x.1.2).2), (halike.begin x.2 d).2⟩)
  poll handle x :=
    ((h.poll handle x.1.1).1,
      ⟨((h.poll handle x.1.1).2, (g.poll handle x.1.2).2), (halike.poll x.2 handle).2⟩)
  holds text x :=
    ((h.holds text x.1.1).1,
      ⟨((h.holds text x.1.1).2, (g.holds text x.1.2).2), (halike.holds x.2 text).2⟩)

theorem joint_leavesToLog : halike.joint.LeavesToLog := fun _ _ _ _ => rfl

/-- The first host, seen in the joint host. -/
def left (hh : h.LeavesToLog) : Host.View halike.joint h where
  state x := x.1.1
  handle := id
  polls := true
  jumps := true
  perform _ _ := rfl
  begin _ _ := rfl
  holds _ _ := rfl
  admits scope log site x := hh scope log site x.1.1

/-- The second host, seen in the joint host. -/
def right (hg : g.LeavesToLog) : Host.View halike.joint g where
  state x := x.1.2
  handle := id
  polls := true
  jumps := true
  perform _ _ := rfl
  begin d x := Prod.ext (halike.begin x.2 d).1 rfl
  holds text x := Prod.ext (halike.holds x.2 text).1 rfl
  admits scope log site x := hg scope log site x.1.2

theorem keepsPolls_left (hh : h.LeavesToLog) : (halike.left hh).KeepsPolls := ⟨rfl, fun _ _ => rfl⟩

theorem keepsPolls_right (hg : g.LeavesToLog) : (halike.right hg).KeepsPolls :=
  ⟨rfl, fun handle x => Prod.ext (halike.poll x.2 handle).1 rfl⟩

end Host.Alike

/-! ### Layouts -/

/-- Two scripts are the same but for the lines of their conditions, and two conditions share a line
in the one exactly if they do in the other. -/
structure Script.SharesLines (u v : Script) : Prop where
  same : v.withoutLines = u.withoutLines
  shared : ∀ a ∈ u.lines.zip v.lines, ∀ b ∈ u.lines.zip v.lines, a.1 = b.1 ↔ a.2 = b.2

/-- Lists that repeat themselves at the same places are images of each other. -/
theorem exists_injective_map {α : Type} [DecidableEq α] {xs ys : List α}
    (hlength : ys.length = xs.length)
    (hshared : ∀ a ∈ xs.zip ys, ∀ b ∈ xs.zip ys, a.1 = b.1 ↔ a.2 = b.2) :
    ∃ f : α → α, Function.Injective f ∧ ys = xs.map f := by
  induction xs generalizing ys with
  | nil => exact ⟨id, Function.injective_id, List.eq_nil_of_length_eq_zero hlength⟩
  | cons x xs ih =>
      obtain ⟨y, ys, rfl⟩ := List.exists_cons_of_length_eq_add_one hlength
      rw [List.zip_cons_cons] at hshared
      obtain ⟨f, hf, rfl⟩ := ih (Nat.succ.inj hlength) fun a ha b hb =>
        hshared a (List.mem_cons_of_mem _ ha) b (List.mem_cons_of_mem _ hb)
      have hzip : xs.zip (xs.map f) = xs.map fun z => (z, f z) := by
        simpa only [List.map_id, id] using List.zip_map' (f := id) (g := f) (l := xs)
      have hfirst (z : α) (hz : z ∈ xs) : x = z ↔ y = f z := by
        refine hshared (x, y) List.mem_cons_self (z, f z) (List.mem_cons_of_mem _ ?_)
        rw [hzip]
        exact List.mem_map_of_mem hz
      by_cases hx : x ∈ xs
      · exact ⟨f, hf, congrArg (· :: _) ((hfirst x hx).mp rfl)⟩
      · -- nothing is mapped to `y` yet, so `x` may be
        refine ⟨Equiv.swap (f x) y ∘ f, (Equiv.injective _).comp hf, ?_⟩
        rw [List.map_cons, Function.comp_apply, Equiv.swap_apply_left]
        refine congrArg (y :: ·) (List.map_congr_left fun z hz => ?_)
        have hxz : x ≠ z := fun heq => hx (heq ▸ hz)
        exact (Equiv.swap_apply_of_ne_of_ne (hf.ne hxz.symm)
          (fun heq => hxz ((hfirst z hz).mpr heq.symm))).symm

/-- If parts are determined by what is left of them without their lines and by their lines, then so
are wholes. -/
theorem eq_map_of_flatMap {α β γ : Type} {forget : α → β} {lines : α → List γ} {f : γ → γ}
    {g : α → α} (hlength : ∀ {a a'}, forget a' = forget a → (lines a').length = (lines a).length)
    (hpart : ∀ {a a'}, forget a' = forget a → lines a' = (lines a).map f → a' = g a)
    {as as' : List α} (hforget : as'.map forget = as.map forget)
    (hlines : as'.flatMap lines = (as.flatMap lines).map f) : as' = as.map g := by
  induction as generalizing as' with
  | nil => exact List.map_eq_nil_iff.mp hforget
  | cons a as ih =>
      obtain ⟨a', as', rfl, hfirst, hrest⟩ := List.map_eq_cons_iff.mp hforget
      rw [List.flatMap_cons, List.flatMap_cons, List.map_append] at hlines
      obtain ⟨hline, hlines⟩ := List.append_inj hlines (by rw [hlength hfirst, List.length_map])
      rw [List.map_cons, ← hpart hfirst hline, ← ih hrest hlines]

theorem length_flatMap_congr {α β γ : Type} {forget : α → β} {lines : α → List γ}
    (hlength : ∀ {a a'}, forget a' = forget a → (lines a').length = (lines a).length)
    {as as' : List α} (hforget : as'.map forget = as.map forget) :
    (as'.flatMap lines).length = (as.flatMap lines).length := by
  induction as generalizing as' with
  | nil => rw [List.map_eq_nil_iff.mp hforget]
  | cons a as ih =>
      obtain ⟨a', as', rfl, hfirst, hrest⟩ := List.map_eq_cons_iff.mp hforget
      rw [List.flatMap_cons, List.flatMap_cons, List.length_append, List.length_append,
        hlength hfirst, ih hrest]

theorem Statement.length_lines {st st' : Statement} (hsame : st'.withoutLines = st.withoutLines) :
    st'.lines.length = st.lines.length :=
  length_flatMap_congr (fun _ => rfl) (Statement.mk.inj hsame).2

theorem Statement.eq_mapLines {f : UInt32 → UInt32} {st st' : Statement}
    (hsame : st'.withoutLines = st.withoutLines) (hlines : st'.lines = st.lines.map f) :
    st' = st.mapLines f := by
  obtain ⟨hinstruction, hconditions⟩ := Statement.mk.inj hsame
  have hcondition {c c' : Condition} (hsame : c'.withoutLine = c.withoutLine)
      (hline : [c'.line] = [c.line].map f) : c' = c.mapLine f := by
    obtain ⟨gate, line⟩ := c
    obtain ⟨gate', line'⟩ := c'
    obtain ⟨rfl, -⟩ := Condition.mk.inj hsame
    obtain rfl : line' = f line := List.singleton_inj.mp hline
    rfl
  exact congr (congrArg Statement.mk hinstruction)
    (eq_map_of_flatMap (fun _ => rfl) hcondition hconditions hlines)

theorem Label.length_lines {l l' : Label} (hsame : l'.withoutLines = l.withoutLines) :
    l'.lines.length = l.lines.length :=
  length_flatMap_congr Statement.length_lines (Label.mk.inj hsame).2

theorem Label.eq_mapLines {f : UInt32 → UInt32} {l l' : Label}
    (hsame : l'.withoutLines = l.withoutLines) (hlines : l'.lines = l.lines.map f) :
    l' = l.mapLines f := by
  obtain ⟨hname, hstatements⟩ := Label.mk.inj hsame
  exact congr (congrArg Label.mk hname)
    (eq_map_of_flatMap Statement.length_lines Statement.eq_mapLines hstatements hlines)

/-- Another layout of a script is a renumbering of its lines. -/
theorem Script.exists_mapLines_of_sharesLines {u v : Script} (h : u.SharesLines v) :
    ∃ f, Function.Injective f ∧ v = u.mapLines f := by
  have hlabels := Script.mk.inj h.same
  obtain ⟨f, hf, hlines⟩ :=
    exists_injective_map (length_flatMap_congr Label.length_lines hlabels) h.shared
  exact ⟨f, hf, congrArg Script.mk
    (eq_map_of_flatMap Label.length_lines Label.eq_mapLines hlabels hlines)⟩

/-- A host for which all code holds and every wait is over at once, and which counts the calls. -/
def Host.counting : Host Nat Unit where
  perform _ count := count + 1
  begin _ count := ((), count + 1)
  poll _ count := (true, count + 1)
  holds _ count := (true, count + 1)

/-! ### Renumbered players -/

/-- Two scenes have the same player but for renumbered lines, and hosts in related states; and the
same calls, but for the lines asked about, have been made since two others. -/
structure Scene.Renumbered (f : UInt32 → UInt32) (R : σ → τ → Prop) (s : Scene σ ω)
    (t : Scene τ ω) (s' : Scene σ ω) (t' : Scene τ ω) : Prop where
  player : t'.player = s'.player.renumbered f
  host : R s'.host t'.host
  calls : ∃ calls, s'.calls = s.calls ++ calls ∧ t'.calls = t.calls ++ calls.map (·.mapLine f)

namespace Scene

variable {R : σ → τ → Prop} {h : Host σ ω} {g : Host τ ω} {f : UInt32 → UInt32}

/-- Renumbered players whose hosts answer alike stay so, and make the same calls but for the lines
asked about. -/
theorem renumbered_after (halike : Host.Alike R h g) (hh : h.LeavesToLog) (hg : g.LeavesToLog)
    (hf : Function.Injective f) {s : Scene σ ω} {t : Scene τ ω} (hhost : R s.host t.host)
    (hplayer : t.player = s.player.renumbered f) {ops : List Operation}
    (hops : ∀ op ∈ ops, op.stays = true) : Renumbered f R s t (s.after h ops) (t.after g ops) := by
  -- both scenes with the joint host, where they are in step
  let x : { x : σ × τ // R x.1 x.2 } := ⟨(s.host, t.host), hhost⟩
  let s₀ : Scene { x : σ × τ // R x.1 x.2 } ω := ⟨s.player, x, s.transcript⟩
  let t₀ : Scene { x : σ × τ // R x.1 x.2 } ω := ⟨t.player, x, t.transcript⟩
  let L := Host.Likeness.renumbering halike.joint_leavesToLog hf
  have hstart : InStep L s.events t.events s₀ t₀ :=
    ⟨⟨_, rfl, hplayer⟩, rfl, [], (List.append_nil _).symm, (List.append_nil _).symm⟩
  have hst := hstart.after hops
  have hs : s.after h ops = _ :=
    Host.View.after_of_full rfl rfl (halike.keepsPolls_left hh) s₀ ops
  have ht : t.after g ops = _ :=
    Host.View.after_of_full rfl rfl (halike.keepsPolls_right hg) t₀ ops
  rw [hs, ht]
  obtain ⟨log, rfl, hplayers⟩ := hst.player
  refine ⟨hplayers, ?_, hst.calls⟩
  rw [hst.host]
  exact (s₀.after halike.joint ops).host.2

/-- Sources of a dialog in two layouts are played alike from an empty log, if their lines are
renumbered. -/
theorem renumbered_startSource (halike : Host.Alike R h g) (hh : h.LeavesToLog)
    (hg : g.LeavesToLog) (hf : Function.Injective f) {s : Scene σ ω} {t : Scene τ ω}
    (hhost : R s.host t.host) (hplayer : t.player = s.player) (hlog : s.player.log = .empty)
    {source source' : String} {u : Script} (hread : Script.read source = .ok u)
    (hread' : Script.read source' = .ok (u.mapLines f)) (actor dialog label : String)
    {ops : List Operation} (hops : ∀ op ∈ ops, op.stays = true) :
    Renumbered f R s t ((s.apply h (.startSource actor dialog label source)).after h ops)
      ((t.apply g (.startSource actor dialog label source')).after g ops) := by
  obtain ⟨hcallsₛ, hhostₛ⟩ := silent_opened s actor dialog label source u
  obtain ⟨hcallsₜ, hhostₜ⟩ := silent_opened t actor dialog label source' (u.mapLines f)
  have hopened : (t.opened actor dialog label source' (u.mapLines f)).player =
      (s.opened actor dialog label source u).player.renumbered f := by
    simp only [player_opened, hplayer, Player.dismissed, hlog]
    rfl
  have hgo : ∀ op ∈ Operation.goTo label :: ops, op.stays = true :=
    List.forall_mem_cons.mpr ⟨rfl, hops⟩
  obtain ⟨hplayers, hhosts, hcalls⟩ :=
    renumbered_after halike hh hg hf (by rwa [hhostₛ, hhostₜ]) hopened hgo
  simp only [after_cons, apply, hcallsₛ, hcallsₜ] at hplayers hhosts hcalls
  simp only [apply, startSource_of_ok hread, startSource_of_ok hread']
  exact ⟨hplayers, hhosts, hcalls⟩

/-- Source lines matter to a session as identities only. Let two players differ in nothing but that
the lines of the script and the log of one are those of the other, renumbered, no two of them to the
same, and let their hosts answer alike and leave the once family to the log. Then they make the same
calls, but for the lines asked about, and differ in nothing else for as long as the session lasts.
Hence the sources of a dialog in two layouts whose conditions share lines alike are played alike
from an empty log. -/
theorem lines_are_identities (halike : Host.Alike R h g) (hh : h.LeavesToLog)
    (hg : g.LeavesToLog) {s : Scene σ ω} {t : Scene τ ω} (hhost : R s.host t.host) :
    (∀ f, Function.Injective f → t.player = s.player.renumbered f →
      ∀ ops, (∀ op ∈ ops, op.stays = true) →
        Renumbered f R s t (s.after h ops) (t.after g ops)) ∧
      (t.player = s.player → s.player.log = .empty →
        ∀ source source' u v, Script.read source = .ok u → Script.read source' = .ok v →
          u.SharesLines v → ∃ f, Function.Injective f ∧
            ∀ actor dialog label ops, (∀ op ∈ ops, op.stays = true) →
              Renumbered f R s t
                ((s.apply h (.startSource actor dialog label source)).after h ops)
                ((t.apply g (.startSource actor dialog label source')).after g ops)) := by
  refine ⟨fun f hf hplayer ops hops => renumbered_after halike hh hg hf hhost hplayer hops, ?_⟩
  intro hplayer hlog source source' u v hread hread' hshares
  obtain ⟨f, hf, rfl⟩ := Script.exists_mapLines_of_sharesLines hshares
  exact ⟨f, hf, fun actor dialog label ops hops =>
    renumbered_startSource halike hh hg hf hhost hplayer hlog hread hread' actor dialog label hops⟩

/-- Two conditions on one line, which becomes another line: the choice is barred by the code before
it, for either player. A source with an empty line more is played alike. -/
theorem identities_of_shared_line :
    let f : UInt32 → UInt32 := (· + 4)
    let p : Player Unit := {
      loader := fun name => .error (.notFound name), log := ⟨[⟨.showOnce, ⟨"b", "d", 3⟩⟩]⟩,
      script := ⟨[⟨"s", [⟨.code "x", [⟨.scope .once, 3⟩]⟩,
        ⟨.choice 1 "y" "s", [⟨.scope .once, 3⟩]⟩]⟩]⟩, actor := "a", dialog := "d" }
    let s : Scene Unit Unit := { player := p, host := () }
    let t : Scene Nat Unit := { player := p.renumbered f, host := 0 }
    let s₀ : Scene Unit Unit := { player := .new p.loader, host := () }
    let t₀ : Scene Nat Unit := { player := .new p.loader, host := 0 }
    let u : Script := ⟨[⟨"s", [⟨.code "x", [⟨.scope .once, 2⟩]⟩]⟩]⟩
    let v : Script := ⟨[⟨"s", [⟨.code "x", [⟨.scope .once, 3⟩]⟩]⟩]⟩
    (Renumbered f (fun _ _ => True) s t (s.after Host.instant [.goTo "s"])
        (t.after Host.counting [.goTo "s"]) ∧
      (s.after Host.instant [.goTo "s"]).player.phase = .idle) ∧
      Script.read ":s\n!x [once]\n" = .ok u ∧ Script.read "\n:s\n!x [once]\n" = .ok v ∧
        u.SharesLines v ∧
        ∃ f, Function.Injective f ∧ Renumbered f (fun _ _ => True) s₀ t₀
          (s₀.apply Host.instant (.startSource "a" "d" "s" ":s\n!x [once]\n"))
          (t₀.apply Host.counting (.startSource "a" "d" "s" "\n:s\n!x [once]\n")) := by
  intro f p s t s₀ t₀ u v
  have halike : Host.Alike (fun _ _ => True) Host.instant Host.counting :=
    ⟨fun _ _ => trivial, fun _ _ => ⟨rfl, trivial⟩, fun _ _ => ⟨rfl, trivial⟩,
      fun _ _ => ⟨rfl, trivial⟩⟩
  have hread : Script.read ":s\n!x [once]\n" = .ok u := by decide +kernel
  have hread' : Script.read "\n:s\n!x [once]\n" = .ok v := by decide +kernel
  have hzip : u.lines.zip v.lines = [(2, 3)] := rfl
  have hshares : u.SharesLines v := ⟨rfl, by simp [hzip]⟩
  obtain ⟨hlines, -⟩ := lines_are_identities halike (fun _ _ _ _ => rfl) (fun _ _ _ _ => rfl)
    (s := s) (t := t) trivial
  obtain ⟨-, hlayouts⟩ := lines_are_identities halike (fun _ _ _ _ => rfl) (fun _ _ _ _ => rfl)
    (s := s₀) (t := t₀) trivial
  obtain ⟨f', hf', hplayed⟩ := hlayouts rfl rfl _ _ u v hread hread' hshares
  have hf : Function.Injective f := fun _ _ heq => (UInt32.add_left_inj 4).mp heq
  exact ⟨⟨hlines f hf rfl _ (by decide), by decide +kernel⟩, hread, hread', hshares, f', hf',
    hplayed "a" "d" "s" [] (by decide)⟩

end Scene

end DialogScript
