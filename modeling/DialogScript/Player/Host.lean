import DialogScript.Log

/-!
# The host of a player

The player neither talks nor waits nor evaluates code itself; it calls its host. A host is a
machine: each call is answered from its state and changes it. Saying and waiting take time: the host
hands back a handle, which the player polls until it is ready.

## Main definitions

* `Effect`, `Delay`: what the player asks for, done at once or taking time
* `Host`: how calls are answered
* `Call`: a call with its answer
-/

namespace DialogScript

/-- What a host does at once. -/
inductive Effect
  | allowObjects (allow : Bool)
  /-- The dialog passes to an actor. -/
  | handOver (actor : String)
  | execute (code : String)
  | shutUp
  | goto (label : String)
  | limit (max : Nat)
  | override (label : String)
  | parrot (active : Bool)
  deriving DecidableEq, Repr

/-- The host is only told; the player does the work. -/
def Effect.isNotification : Effect → Bool
  | goto _ | limit _ | override _ | parrot _ => true
  | _ => false

/-- What takes a host some time. -/
inductive Delay
  | say (actor text : String)
  | pause (seconds : Binary32)
  | waitFor (actor : String)
  | waitWhile (code : String)
  deriving DecidableEq, Repr

/-- A host with states `σ` whose delays have handles `ω`. -/
structure Host (σ ω : Type) where
  /-- Does something at once. -/
  perform : Effect → σ → σ
  /-- Begins something that takes time. -/
  begin : Delay → σ → ω × σ
  /-- Whether what a handle stands for is over. -/
  poll : ω → σ → Bool × σ
  /-- The value of code in a condition. -/
  holds : String → σ → Bool × σ
  /-- Whether a scope admits a statement at a site. A host that does not care asks the log. -/
  admits : Scope → Log → Site → σ → Bool × σ :=
    fun scope log site state => (!log.contains scope site, state)

/-- A call of a host and its answer. -/
inductive Call (ω : Type)
  | effect (e : Effect)
  | delay (d : Delay) (handle : ω)
  | poll (handle : ω) (ready : Bool)
  | code (text : String) (holds : Bool)
  | scope (s : Scope) (site : Site) (admitted : Bool)
  deriving DecidableEq, Repr

end DialogScript
