import ClusterClient.AttemptError

/-!
# Speculative executions

A speculative execution launches further fibers of the same request while earlier ones still wait.
A `Race` keeps the books: how many launches are left, when the next one is due, how many fibers
run, the last failure, and the verdict once there is one. `Race.launch` starts a fiber,
`Race.finish` takes the `Ending` of one.

The first success is the verdict, and so is the first failure that every node would return. A fiber
that found the plan used up stops further launches. When no fiber runs and none is left to launch,
the verdict is the last failure, or that nothing was tried.
-/

namespace ClusterClient

/-- How a fiber failed. -/
inductive FiberFailure where
  /-- The retry policy stopped after this error. -/
  | gaveUp (error : AttemptError)
  /-- The plan ran out of nodes after this error. -/
  | planExhausted (error : AttemptError)
  deriving DecidableEq, Repr

/-- The error a fiber failed with. -/
def FiberFailure.error : FiberFailure → AttemptError
  | .gaveUp e | .planExhausted e => e

/-- Whether other fibers might still succeed. -/
def FiberFailure.ignorable : FiberFailure → Bool
  | .gaveUp e => e.mayDifferElsewhere
  | .planExhausted _ => true

/-- Whether the plan ran out. -/
def FiberFailure.isPlanExhausted : FiberFailure → Bool
  | .gaveUp _ => false
  | .planExhausted _ => true

/-- How a fiber, or a whole race, ended. -/
inductive Ending (α : Type) where
  | succeeded (value : α)
  | failed (failure : FiberFailure)
  /-- There was no node to try. -/
  | idle

/-- How many fibers may be launched beside the first, and the time between launches, in
milliseconds. -/
structure Speculation where
  max : Nat
  interval : Nat
  deriving DecidableEq, Repr

/-- The state of a race between fibers. -/
structure Race (α : Type) where
  interval : Nat
  /-- How many fibers may still be launched. -/
  left : Nat
  /-- When the next fiber is due. -/
  nextLaunch : Nat
  launched : Nat
  running : Nat
  lastFailure : Option FiberFailure
  verdict : Option (Ending α)

namespace Race

variable {α : Type}

/-- A race in which no fiber runs yet; the first one is launched at once. -/
def start (speculation : Option Speculation) (now : Nat) : Race α :=
  let s := speculation.getD ⟨0, 0⟩
  ⟨s.interval, s.max, now + s.interval, 0, 0, none, none⟩

/-- Whether a further fiber may be launched. -/
def mayLaunch (r : Race α) : Bool :=
  r.verdict.isNone && r.left ≠ 0

/-- When the next launch is due, if there may be one. -/
def due? (r : Race α) : Option Nat :=
  if r.mayLaunch then some r.nextLaunch else none

/-- The race with its first fiber running. -/
def launchFirst (r : Race α) : Race α :=
  { r with launched := r.launched + 1, running := r.running + 1 }

/-- The race with one more fiber running; the next launch is due one interval from now. -/
def launch (r : Race α) (now : Nat) : Race α :=
  { r with
    left := r.left - 1
    nextLaunch := now + r.interval
    launched := r.launched + 1
    running := r.running + 1 }

/-- Gives the verdict if nothing can happen any more. -/
def close (r : Race α) : Race α :=
  if r.running = 0 ∧ r.left = 0 then
    { r with verdict := some (match r.lastFailure with
      | some f => .failed f
      | none => .idle) }
  else r

/-- Takes the ending of a running fiber. -/
def finish (r : Race α) (e : Ending α) : Race α :=
  let r := { r with running := r.running - 1 }
  match e with
  | .succeeded a => { r with verdict := some (.succeeded a) }
  | .failed f =>
    if f.ignorable then
      close { r with left := if f.isPlanExhausted then 0 else r.left, lastFailure := some f }
    else { r with verdict := some (.failed f) }
  | .idle => close { r with left := 0 }

end Race

end ClusterClient
