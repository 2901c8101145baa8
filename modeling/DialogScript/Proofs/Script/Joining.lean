import DialogScript.Proofs.Script.Relocation
import DialogScript.Proofs.Token.Joining

/-!
# Scripts of joined sources

Behind whole lines that are a script, a source that begins with the head of a label is read as it is
read alone. Its lexemes are those that it has alone, further on, and its first one ends the last
label of the script before, whose clauses have nothing on that line. So the labels follow each
other, and an error is the same one on a later line.

## Main definitions

* `OpensLabel`: lexemes that begin with the head of a label
* `Lexeme.Move.further`: lexemes are put behind a text
* `Error.mapLine`: an error on another line

## Main results

* `Script.readChars_append`: joined sources are read one after the other
* `Script.read_append`: the labels of joined sources, and the errors in the second one
-/

namespace DialogScript

/-! ### The head of a label -/

/-- The lexemes begin with a colon and a word on its line. -/
def OpensLabel : List Lexeme → Prop
  | colon :: name :: _ => colon.kind = .colon ∧ name.kind = .word ∧ name.line = colon.line
  | _ => False

instance : DecidablePred OpensLabel
  | [] | [_] => .isFalse id
  | _ :: _ :: _ => inferInstanceAs (Decidable (_ ∧ _ ∧ _))

theorem OpensLabel.exists_eq {ls : List Lexeme} (hls : OpensLabel ls) :
    ∃ colon name rest, ls = colon :: name :: rest ∧
      colon.kind = .colon ∧ name.kind = .word ∧ name.line = colon.line := by
  rcases ls with - | ⟨colon, - | ⟨name, rest⟩⟩
  · exact hls.elim
  · exact hls.elim
  · exact ⟨colon, name, rest, rfl, hls⟩

theorem OpensLabel.map {ls : List Lexeme} (hls : OpensLabel ls) (m : Lexeme.Move) :
    OpensLabel (ls.map m.lexeme) := by
  obtain ⟨colon, name, rest, rfl, hcolon, hname, hline⟩ := hls.exists_eq
  exact ⟨(m.kind_lexeme colon).trans hcolon, (m.kind_lexeme name).trans hname,
    Lexeme.Move.line_eq_iff.mpr hline⟩

theorem Clause.all_of_head {colon name : Lexeme} (hcolon : colon.kind = .colon)
    (hname : name.kind = .word) (hline : name.line = colon.line) (opened : Bool)
    (rest : List Lexeme) : Clause.all opened (colon :: name :: rest) =
      (Clause.all true rest).map (Clause.label name.string :: ·) := by
  have hhead : head colon (name :: rest) = .ok (.label name.string, rest) := by
    rw [head, expect, if_pos ⟨hname, hline⟩]
    rfl
  have hread : read opened colon (name :: rest) = .ok (.label name.string, rest) := by
    cases opened <;> simp only [read, hcolon, decide_true, hhead]
  rw [all_cons, hread]
  simp only [bind, Except.bind, isLabel, Bool.or_true]
  cases all true rest <;> rfl

/-- Whether a label is open before the head of one does not matter. -/
theorem OpensLabel.all_eq {ls : List Lexeme} (hls : OpensLabel ls) (opened : Bool) :
    Clause.all opened ls = Clause.all false ls := by
  obtain ⟨colon, name, rest, rfl, hcolon, hname, hline⟩ := hls.exists_eq
  rw [Clause.all_of_head hcolon hname hline, Clause.all_of_head hcolon hname hline]

/-- The head of a label is the first clause. -/
theorem OpensLabel.exists_cons {ls : List Lexeme} (hls : OpensLabel ls) {opened : Bool}
    {cs : List Clause} (hall : Clause.all opened ls = .ok cs) :
    ∃ name rest, cs = .label name :: rest := by
  obtain ⟨colon, name, rest, rfl, hcolon, hname, hline⟩ := hls.exists_eq
  rw [Clause.all_of_head hcolon hname hline] at hall
  cases hrest : Clause.all true rest with
  | error e =>
      rw [hrest] at hall
      cases hall
  | ok cs' =>
      rw [hrest] at hall
      exact ⟨_, _, (Except.ok.inj hall).symm⟩

/-- Before the head of a label, the labels of the clauses are complete. -/
theorem gather_append (cs : List Clause) (name : String) (rest : List Clause) :
    (gather (cs ++ .label name :: rest)).1 = (gather cs).1 ∧
      (gather (cs ++ .label name :: rest)).2 =
        (gather cs).2 ++ (gather (.label name :: rest)).2 := by
  induction cs with
  | nil => exact ⟨rfl, rfl⟩
  | cons c cs ih =>
      obtain ⟨hstatements, hlabels⟩ := ih
      cases c <;> simp only [List.cons_append, gather, hstatements, hlabels, and_self]

theorem Script.ofClauses_append (cs : List Clause) (name : String) (rest : List Clause) :
    Script.ofClauses (cs ++ .label name :: rest) =
      ⟨(Script.ofClauses cs).labels ++ (Script.ofClauses (.label name :: rest)).labels⟩ :=
  congrArg Script.mk (gather_append cs name rest).2

/-! ### Lexemes behind a text -/

/-- Lexemes are put behind a text. -/
def Lexeme.Move.further (cs : List Char) : Lexeme.Move where
  lexeme l := { l with
    start := utf8Length cs + l.start, line := l.line + UInt32.ofNat (cs.count '\n') }
  line line := line + UInt32.ofNat (cs.count '\n')
  kind_lexeme _ := rfl
  text_lexeme _ := rfl
  line_lexeme _ := rfl
  line_injective := fun _ _ h => (UInt32.add_left_inj _).mp h

namespace Lexeme.Move

variable {cs : List Char}

theorem line_further {line : UInt32} (hline : line.toNat + cs.count '\n' ≤ 4294967295) :
    (further cs).line line = later (cs.count '\n') line :=
  (later_eq_add hline).symm

theorem lexeme_further {l : Lexeme} (hline : l.line.toNat + cs.count '\n' ≤ 4294967295) :
    (further cs).lexeme l = l.behind cs := by
  rw [behind, ← line_further hline]
  rfl

end Lexeme.Move

/-! ### Errors on other lines -/

/-- The line in a source that an error names. -/
def ErrorKind.line? : ErrorKind → Option UInt32
  | .malformed _ line _ _ => some line
  | .unknownInstruction _ line => some line
  | _ => none

/-- The line in a source that an error names. -/
def Error.line? (e : Error) : Option UInt32 := e.kind.line?

/-- An error names the line of the lexeme of its fault. -/
theorem Fault.line?_error (f : Fault) (source : List Char) :
    (f.error source).line? = some f.lexeme.line := by
  cases f <;> rfl

/-- The cause on another line. -/
def ErrorKind.mapLine (f : UInt32 → UInt32) : ErrorKind → ErrorKind
  | .malformed message line column text => .malformed message (f line) column text
  | .unknownInstruction name line => .unknownInstruction name (f line)
  | kind => kind

/-- The error on another line. -/
def Error.mapLine (f : UInt32 → UInt32) (e : Error) : Error := { e with kind := e.kind.mapLine f }

theorem Error.mapLine_congr {f g : UInt32 → UInt32} {e : Error}
    (h : ∀ line ∈ e.line?, f line = g line) : e.mapLine f = e.mapLine g := by
  obtain ⟨kind, context⟩ := e
  cases kind with
  | malformed message line | unknownInstruction name line =>
      simp only [mapLine, ErrorKind.mapLine, h line rfl]
  | _ => rfl

/-- An error in a source names the line of one of its lexemes. -/
theorem Script.line_of_read_error {source : String} {e : Error}
    (hread : Script.read source = .error e) :
    ∀ line ∈ e.line?, ∃ l ∈ significant source.toList, l.line = line := by
  intro line hline
  rw [Script.read, readChars] at hread
  split at hread
  · cases hread
  · rename_i failure hfailure
    obtain rfl := Except.error.inj hread
    refine ⟨failure.fault.lexeme, Clause.lexeme_mem_of_all hfailure, ?_⟩
    rw [Fault.line?_error] at hline
    exact Option.some.inj hline

/-- The error of a fault behind whole lines is that without them, on a later line. -/
theorem Fault.error_further {source : List Char} (hsource : EndsLine source) (more : List Char)
    (f : Fault) : ((Lexeme.Move.further source).fault f).error (source ++ more) =
      (f.error more).mapLine (Lexeme.Move.further source).line := by
  cases f with
  | unmet e anchor =>
      rw [Lexeme.Move.fault, error, Lexeme.Move.further, columnAt?_append hsource,
        lineTextAt_append hsource]
      rfl
  | unknownWord w => rfl

/-! ### Joined sources -/

section Joined

variable {source more : List Char}

/-- The lexemes of joined sources that are short enough are those of both, moved behind. -/
theorem significant_append_further (hsource : WholeLines source)
    (hroom : source.count '\n' + more.count '\n' < 4294967295) :
    significant (source ++ more) =
      significant source ++ (significant more).map (Lexeme.Move.further source).lexeme := by
  rw [significant_append hsource]
  refine congrArg _ (List.map_congr_left fun l hl => (Lexeme.Move.lexeme_further ?_).symm)
  have hline := (line_of_mem_significant hl).2
  omega

/-- The head of a label behind whole lines stands on another line than any lexeme in them. -/
theorem startsApart_further (hsource : WholeLines source) (hmore : OpensLabel (significant more))
    (hroom : source.count '\n' + more.count '\n' < 4294967295) {l : Lexeme}
    (hl : l ∈ significant source) :
    StartsApart l.line ((significant more).map (Lexeme.Move.further source).lexeme) := by
  obtain ⟨colon, name, rest, hfront, hcolon, -⟩ := hmore.exists_eq
  have hbounds := line_of_mem_significant (hfront ▸ List.mem_cons_self : colon ∈ significant more)
  have hroom' : colon.line.toNat + source.count '\n' ≤ 4294967295 := by omega
  intro k hk
  rw [hfront] at hk
  obtain rfl := Option.some.inj hk
  refine ⟨hcolon, fun hsame => ?_⟩
  have hbefore := hsource.line_le hl
  rw [← hsame, Lexeme.Move.line_lexeme, Lexeme.Move.line_further hroom', toNat_later hroom']
    at hbefore
  omega

/-- Behind whole lines that are a script, a source that begins with the head of a label is read as
it is read alone, further on. -/
theorem Script.readChars_append {u : Script} (hsource : WholeLines source)
    (hu : readChars source = .ok u) (hmore : OpensLabel (significant more))
    (hroom : source.count '\n' + more.count '\n' < 4294967295) :
    readChars (source ++ more) =
      match readChars more with
      | .ok v => .ok ⟨u.labels ++ (v.mapLines (Lexeme.Move.further source).line).labels⟩
      | .error e => .error (e.mapLine (Lexeme.Move.further source).line) := by
  rw [readChars] at hu
  split at hu
  · rename_i before hbefore
    obtain rfl := Except.ok.inj hu
    have happart := fun l hl => startsApart_further hsource hmore hroom (l := l) hl
    rw [readChars, readChars, significant_append_further hsource hroom,
      Clause.all_append happart hbefore, (hmore.map _).all_eq, Clause.all_map]
    cases hbehind : Clause.all false (significant more) with
    | error e =>
        exact congrArg Except.error (e.fault.error_further hsource.coverLines.endsLine more)
    | ok behind =>
        obtain ⟨name, rest, rfl⟩ := hmore.exists_cons hbehind
        dsimp only
        rw [← ofClauses_moved]
        exact congrArg Except.ok (ofClauses_append before name _)
  · cases hu

end Joined

/-- Behind whole lines that are a script, a source that begins with the head of a label adds its
labels, and an error in it remains, on lines that are later by the number of line feeds before. -/
theorem Script.read_append {s t : String} {u : Script} (hs : WholeLines s.toList)
    (hu : Script.read s = .ok u) (ht : OpensLabel (significant t.toList))
    (hroom : (s ++ t).toList.count '\n' < 4294967295) :
    (∀ v, Script.read t = .ok v →
      Script.read (s ++ t) =
          .ok ⟨u.labels ++ (v.mapLines (later (s.toList.count '\n'))).labels⟩ ∧
        ∀ line ∈ v.lines,
          (later (s.toList.count '\n') line).toNat = line.toNat + s.toList.count '\n') ∧
    (∀ e, Script.read t = .error e →
      Script.read (s ++ t) = .error (e.mapLine (later (s.toList.count '\n'))) ∧
        ∀ line ∈ e.line?,
          (later (s.toList.count '\n') line).toNat = line.toNat + s.toList.count '\n') := by
  rw [String.toList_append, List.count_append] at hroom
  have hread := readChars_append hs hu ht hroom
  rw [← String.toList_append] at hread
  -- Lines of lexemes in the second source have room for the line feeds of the first one.
  have hfits {line : UInt32} (hline : ∃ l ∈ significant t.toList, l.line = line) :
      line.toNat + s.toList.count '\n' ≤ 4294967295 := by
    obtain ⟨l, hl, rfl⟩ := hline
    have hbound := (line_of_mem_significant hl).2
    omega
  refine ⟨fun v hv => ?_, fun e he => ?_⟩
  · have hlines := fun line hline => hfits (lines_of_read hv line hline)
    refine ⟨?_, fun line hline => toNat_later (hlines line hline)⟩
    rw [Script.read, hread, show readChars t.toList = .ok v from hv]
    dsimp only
    rw [mapLines_congr fun line hline => Lexeme.Move.line_further (hlines line hline)]
  · have hlines := fun line hline => hfits (line_of_read_error he line hline)
    refine ⟨?_, fun line hline => toNat_later (hlines line hline)⟩
    rw [Script.read, hread, show readChars t.toList = .error e from he]
    dsimp only
    rw [Error.mapLine_congr fun line hline => Lexeme.Move.line_further (hlines line hline)]

/-- Two labels and then an incomplete one behind one label. -/
theorem Script.read_append_label :
    WholeLines ":a\nb: \"x\"\n".toList ∧ OpensLabel (significant ":c\nd: \"y\" [once]".toList) ∧
      OpensLabel (significant ":c\nd:".toList) ∧
      Script.read (":a\nb: \"x\"\n" ++ ":c\nd: \"y\" [once]") =
        .ok ⟨[⟨"a", [⟨.say "b" "x", []⟩]⟩, ⟨"c", [⟨.say "d" "y", [⟨.scope .once, 4⟩]⟩]⟩]⟩ ∧
      Script.read (":a\nb: \"x\"\n" ++ ":c\nd:") =
        .error { kind := .malformed "expected text after ':'" 4 2 "d:" } := by
  have hs : WholeLines ":a\nb: \"x\"\n".toList :=
    .inr ⟨(tokens ":a\nb: \"x\"\n".toList).take 7, ⟨.newLine, 9, 10⟩, rfl, by decide +kernel⟩
  have hu : Script.read ":a\nb: \"x\"\n" = .ok ⟨[⟨"a", [⟨.say "b" "x", []⟩]⟩]⟩ := by
    decide +kernel
  have ht : OpensLabel (significant ":c\nd: \"y\" [once]".toList) := by decide +kernel
  have ht' : OpensLabel (significant ":c\nd:".toList) := by decide +kernel
  have hv : Script.read ":c\nd: \"y\" [once]" =
      .ok ⟨[⟨"c", [⟨.say "d" "y", [⟨.scope .once, 2⟩]⟩]⟩]⟩ := by decide +kernel
  have he : Script.read ":c\nd:" =
      .error { kind := .malformed "expected text after ':'" 2 2 "d:" } := by decide +kernel
  refine ⟨hs, ht, ht', ?_, ?_⟩
  · exact ((Script.read_append hs hu ht (by decide +kernel)).1 _ hv).1
  · exact ((Script.read_append hs hu ht' (by decide +kernel)).2 _ he).1

end DialogScript
