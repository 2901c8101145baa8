import DialogScript.Number.Binary32

/-!
# Durations

Lengths of time in whole nanoseconds, and how numbers of seconds stand for them.

## Main definitions

* `Binary32.clamped`, `Binary32.times`: a number made not negative, and products
* `Binary32.nanoseconds`: the duration of a number of seconds
* `Deadline`: a point in time to wait for
-/

namespace DialogScript

namespace Binary32

/-- The number, or zero if it is negative or not a number. -/
def clamped : Binary32 → Binary32
  | .signed false rank => .signed false rank
  | _ => zero

/-- The product of two numbers, rounded to the nearest number. -/
def times : Binary32 → Binary32 → Binary32
  | .signed n₁ r₁, .signed n₂ r₂ =>
    let negative := n₁ != n₂
    let f := BinaryFormat.single
    if r₁.val = f.infinity ∨ r₂.val = f.infinity then
      if r₁.val = 0 ∨ r₂.val = 0 then .nan else .ofRank negative f.infinity
    else .ofRank negative (f.nearest (f.units r₁.val * f.units r₂.val) (Nat.pow 2 (2 * f.least)))
  | _, _ => .nan

/-- The duration of a number of seconds, rounded to whole nanoseconds, a tie going to the even
number. What is no number of seconds below `2 ^ 64` lasts no time. -/
def nanoseconds : Binary32 → Nat
  | .signed false rank =>
    let f := BinaryFormat.single
    let n := BinaryFormat.divEven (f.units rank.val * 1000000000) (Nat.pow 2 f.least)
    if n < Nat.pow 2 64 * 1000000000 then n else 0
  | _ => 0

end Binary32

/-- A point in time, in nanoseconds. -/
structure Deadline where
  time : Nat
  deriving DecidableEq, Repr

namespace Deadline

/-- The point in time a duration after another. There is no last point in time. -/
def after (now duration : Nat) : Deadline := ⟨now + duration⟩

/-- The point in time has come. -/
def isReady (d : Deadline) (now : Nat) : Bool := d.time ≤ now

end Deadline

end DialogScript
