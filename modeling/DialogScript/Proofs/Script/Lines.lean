import DialogScript.Script
import Mathlib.Tactic.Simps.Basic

/-!
# Lines of conditions

A condition carries the number of its source line. The numbers are all that tells two layouts of a
script apart, and they are changed all together by a function on lines.

## Main definitions

* `Script.mapLines`: a script with the lines of its conditions renumbered
* `Script.lines`: the lines of the conditions of a script, in order

## Main results

* `Script.mapLines_congr`: only what a function does to the lines that occur matters
-/

namespace DialogScript

/-! ### Renumbered lines -/

section Map

variable (f : UInt32 → UInt32)

/-- The condition on another line. -/
def Condition.mapLine (c : Condition) : Condition := { c with line := f c.line }

/-- The statement with its conditions on other lines. -/
@[simps] def Statement.mapLines (st : Statement) : Statement :=
  { st with conditions := st.conditions.map (·.mapLine f) }

/-- The label with its conditions on other lines. -/
@[simps] def Label.mapLines (l : Label) : Label :=
  { l with statements := l.statements.map (·.mapLines f) }

/-- The script with its conditions on other lines. -/
@[simps] def Script.mapLines (script : Script) : Script := ⟨script.labels.map (·.mapLines f)⟩

end Map

theorem Statement.mapLines_id (st : Statement) : st.mapLines id = st :=
  congrArg (Statement.mk st.instruction) (List.map_id'' (fun _ => rfl) st.conditions)

theorem Script.mapLines_id (script : Script) : script.mapLines id = script := by
  have hlabel (l : Label) : l.mapLines id = l :=
    congrArg (Label.mk l.name) (List.map_id'' Statement.mapLines_id l.statements)
  exact congrArg Script.mk (List.map_id'' hlabel script.labels)

/-! ### The lines of a script -/

/-- The lines of the conditions of a statement, in order. -/
def Statement.lines (st : Statement) : List UInt32 := st.conditions.flatMap fun c => [c.line]

/-- The lines of the conditions of a label, in order. -/
def Label.lines (l : Label) : List UInt32 := l.statements.flatMap Statement.lines

/-- The lines of the conditions of a script, in order. -/
def Script.lines (u : Script) : List UInt32 := u.labels.flatMap Label.lines

variable {f g : UInt32 → UInt32}

theorem Statement.mapLines_congr {st : Statement} (h : ∀ line ∈ st.lines, f line = g line) :
    st.mapLines f = st.mapLines g := by
  refine congrArg (Statement.mk st.instruction) (List.map_congr_left fun c hc => ?_)
  exact congrArg (Condition.mk c.gate)
    (h c.line (List.mem_flatMap.mpr ⟨c, hc, List.mem_singleton_self _⟩))

theorem Label.mapLines_congr {l : Label} (h : ∀ line ∈ l.lines, f line = g line) :
    l.mapLines f = l.mapLines g := by
  refine congrArg (Label.mk l.name) (List.map_congr_left fun st hst => ?_)
  exact st.mapLines_congr fun line hline => h line (List.mem_flatMap.mpr ⟨st, hst, hline⟩)

/-- Functions that agree on the lines of a script renumber it alike. -/
theorem Script.mapLines_congr {u : Script} (h : ∀ line ∈ u.lines, f line = g line) :
    u.mapLines f = u.mapLines g := by
  refine congrArg Script.mk (List.map_congr_left fun l hl => ?_)
  exact l.mapLines_congr fun line hline => h line (List.mem_flatMap.mpr ⟨l, hl, hline⟩)

end DialogScript
