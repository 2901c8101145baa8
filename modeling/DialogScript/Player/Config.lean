/-!
# Configuration of a player

What a player starts each session with, and how much it does at once.
-/

namespace DialogScript

/-- The number of places for choices. -/
def maxChoices : Nat := 9

/-- What a player starts with. -/
structure Config where
  /-- How many choices are offered at once. -/
  limit : Nat := 6
  /-- Chosen texts are said. -/
  parrot : Bool := true
  /-- How many jumps to another label one update makes, at least one. -/
  maxJumps : Nat := 256
  deriving DecidableEq, Repr, Inhabited

namespace Config

/-- Chosen texts are not said. -/
def silent : Config := { parrot := false }

/-- All choices are offered. -/
def allChoices : Config := { limit := maxChoices }

end Config

end DialogScript
