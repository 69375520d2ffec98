import ClusterClient.Execution.Fiber
import ClusterClient.Execution.Outcome

/-!
# Executions

An `Execution` runs one call on the nodes of a plan, with one fiber or several. It is a transition
system: `Execution.start` launches the first fiber, and `Execution.step` goes on after an `Event`,
which is a signal for a request under way, the end of an attempt's time or the launch of a further
fiber. An event that fits nothing under way changes nothing, so what comes back for an abandoned
request has no effect. `Execution.result?` is the outcome once the race between the fibers is
decided.
-/

namespace ClusterClient

/-- One call on the nodes of a plan. -/
structure Execution where
  shared : Shared
  /-- Every fiber launched so far, in the order of launches. -/
  fibers : List Fiber
  race : Race Success

/-- What happens to an execution. -/
inductive Event where
  /-- It is time for a further fiber. -/
  | launch
  | signal (attempt : Nat) (stage : Stage) (signal : Signal)
  /-- The time of an attempt is up. -/
  | expire (attempt : Nat)

/-- An execution after something happened, with the world and what was done. -/
structure Moved (ω : Type) where
  execution : Execution
  world : ω
  acts : List Act

namespace Execution

/-- The fiber that waits for an attempt, and the attempt. -/
def locate (x : Execution) (attempt : Nat) : Option (Fiber × Current) :=
  x.fibers.findSome? fun f =>
    f.current?.bind fun c => if c.number = attempt then some (f, c) else none

variable {ω : Type}

/-- Takes the turn of a fiber; a fiber that ended takes part in the race no more. -/
def settle (x : Execution) (t : Turn ω) : Moved ω :=
  { execution :=
      { shared := t.shared
        fibers := x.fibers.set t.fiber.index t.fiber
        race := match t.fiber.phase with
          | .ended e => x.race.finish e
          | .attempting _ => x.race }
    world := t.world
    acts := t.acts }

/-- Lets a new fiber run. The launch and the first stretch of the fiber are one step. In between a
fiber has its retry session and is counted, and has done nothing else; so if other fibers go first,
the launch may be taken to come after their turns. If these end the execution or use up the plan,
that leaves out a fiber that was counted, and did nothing. -/
def openFiber (env : Environment ω) (settings : Settings) (now : Nat) (x : Execution) (w : ω) :
    Moved ω :=
  let f := Fiber.fresh settings x.fibers.length
  settle { x with fibers := x.fibers ++ [f] }
    ((f.seek env settings now x.shared (env.consult f.index .opened w)).after [.opened f.index])

/-- An execution in which nothing was done. -/
def initial (speculation : Option Speculation) (now : Nat) : Execution :=
  ⟨⟨.fresh, [], false, 0⟩, [], .start speculation now⟩

/-- Starts an execution with its first fiber. -/
def start (env : Environment ω) (settings : Settings) (speculation : Option Speculation)
    (now : Nat) (w : ω) : Moved ω :=
  let x := initial speculation now
  openFiber env settings now { x with race := x.race.launchFirst } w

/-- An execution with one more fiber. -/
def launch (env : Environment ω) (settings : Settings) (now : Nat) (x : Execution) (w : ω) :
    Moved ω :=
  openFiber env settings now { x with race := x.race.launch now } w

/-- Goes on after an event. -/
def step (env : Environment ω) (settings : Settings) (now : Nat) (x : Execution) (w : ω)
    (event : Event) : Moved ω :=
  if x.race.verdict.isSome then ⟨x, w, []⟩
  else
    match event with
    | .launch => if x.race.mayLaunch then x.launch env settings now w else ⟨x, w, []⟩
    | .signal attempt stage signal =>
      match x.locate attempt with
      | none => ⟨x, w, []⟩
      | some (f, c) =>
        if c.attempt.stage = stage ∧ c.attempt.expects signal then
          x.settle (f.react env settings now c signal x.shared w)
        else ⟨x, w, []⟩
    | .expire attempt =>
      match x.locate attempt, settings.timeout with
      | some (f, c), some limit => x.settle (f.expire env settings now c limit x.shared w)
      | _, _ => ⟨x, w, []⟩

/-- Whether a signal for a request would be heard. -/
def awaits (x : Execution) (attempt : Nat) (stage : Stage) (signal : Signal) : Bool :=
  x.race.verdict.isNone &&
    match x.locate attempt with
    | none => false
    | some (_, c) => c.attempt.stage = stage && c.attempt.expects signal

/-- The requests that are waited for, in the order their attempts began. -/
def pending (x : Execution) : List (Nat × Stage) :=
  if x.race.verdict.isSome then []
  else
    (List.range x.shared.attempts).filterMap fun n =>
      (x.locate n).map fun (_, c) => (n, c.attempt.stage)

/-- The times at which something happens by itself. -/
def alarms (x : Execution) : List (Nat × Event) :=
  if x.race.verdict.isSome then []
  else
    (x.fibers.filterMap fun f =>
      f.current?.bind fun c => c.deadline.map fun t => (t, Event.expire c.number)) ++
      (x.race.due?.map fun t => (t, Event.launch)).toList

/-- What was learned so far, apart from who succeeded. -/
def info (x : Execution) : ExecutionInfo :=
  { ExecutionInfo.empty with
    errors := x.shared.errors
    speculative := x.race.launched - 1 }

/-- Why an execution failed whose race ended in a failure. -/
def failure (f : FiberFailure) (info : ExecutionInfo) : ExecutionError :=
  match f with
  | .gaveUp (.timedOut limit) | .planExhausted (.timedOut limit) => .requestTimeout limit info
  | .gaveUp e => .lastAttempt e info
  | .planExhausted _ => .allNodesFailed info

/-- The outcome, once the race is decided. -/
def result? (x : Execution) : Option (Except ExecutionError (Answer × ExecutionInfo)) :=
  x.race.verdict.map fun
    | .succeeded s =>
      .ok (s.answer, { x.info with
        coordinator := some ⟨s.node, s.connection⟩
        successIndex := some s.fiber })
    | .failed f => .error (failure f x.info)
    | .idle => .error .emptyPlan

end Execution

end ClusterClient
