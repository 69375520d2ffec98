import ClusterClient.Execution.Act
import ClusterClient.Execution.Race

/-!
# Fibers

A `Fiber` takes nodes from the plan it shares with the other fibers of its execution and tries them
one after another, as its retry session decides. It runs without interruption until it has written
a request: `Fiber.seek` takes nodes until one gives a connection or the plan ends, `Fiber.react`
goes on after a signal, `Fiber.expire` after the time of an attempt is up. Each gives a `Turn`: the
fiber, what it shares, the world, and what was done.

The world is anything that gives connections, answers the plan and keeps what its policies are told
(`Environment`).
-/

namespace ClusterClient

/-- Where an execution gets its nodes and connections from, and where its load balancer and its
retry policy learn how it goes. -/
structure Environment (ω : Type) where
  chooser : Chooser ω
  connect : Node → ω → Except BrokenCause Connection × ω
  /-- Tells the load balancer how an attempt went. -/
  notify : Feedback → ω → ω
  /-- What the retry session of a fiber can go by beside the reports it got. -/
  lore : Nat → ω → Lore
  /-- Lets the retry policy know what is asked of the session of a fiber. -/
  consult : Nat → Consultation → ω → ω

/-- What is settled when an execution starts. -/
structure Settings where
  call : Call
  routing : Routing
  /-- The time of each attempt, in milliseconds; an attempt without one waits forever. -/
  timeout : Option Nat
  retry : RetryRule

/-- A response that ended an execution, and who gave it. -/
structure Success where
  answer : Answer
  node : Node
  connection : Address
  fiber : Nat

/-- The attempt a fiber waits for. -/
structure Current where
  number : Nat
  node : Node
  attempt : Attempt
  /-- When the attempt times out. -/
  deadline : Option Nat
  /-- When the attempt began. -/
  since : Nat

/-- Where a fiber stands. -/
inductive Phase where
  | attempting (current : Current)
  | ended (ending : Ending Success)

/-- One course of attempts. -/
structure Fiber where
  index : Nat
  consistency : Consistency
  /-- How many retries were decided on so far. -/
  retries : Nat
  session : RetrySession
  lastError : Option AttemptError
  phase : Phase

/-- What the fibers of an execution share. -/
structure Shared where
  plan : Plan
  /-- The failures so far, oldest first, each with the address of the node tried. -/
  errors : List (Address × AttemptError)
  /-- Whether a fiber claimed the result. -/
  completed : Bool
  /-- How many attempts were begun. -/
  attempts : Nat

/-- Notes a failure, unless the result is claimed. -/
def Shared.record (s : Shared) (node : Address) (error : AttemptError) : Shared :=
  if s.completed then s else { s with errors := s.errors ++ [(node, error)] }

/-- One uninterrupted stretch of a fiber. -/
structure Turn (ω : Type) where
  fiber : Fiber
  shared : Shared
  world : ω
  acts : List Act

/-- A turn with something done before it. -/
def Turn.after {ω : Type} (acts : List Act) (t : Turn ω) : Turn ω :=
  { t with acts := acts ++ t.acts }

/-- What comes of asking a node for a connection. -/
structure Visit (ω : Type) where
  /-- Whether the fiber has to go on to another node. -/
  refused : Bool
  turn : Turn ω

namespace Fiber

/-- A fiber that did not take a node yet. -/
def fresh (settings : Settings) (index : Nat) : Fiber :=
  ⟨index, settings.routing.consistency, 0, .fresh settings.retry, none, .ended .idle⟩

/-- The attempt a fiber waits for, if there is one. -/
def current? (f : Fiber) : Option Current :=
  match f.phase with
  | .attempting c => some c
  | .ended _ => none

/-- The ending of a fiber whose plan has no further node. -/
def exhausted (f : Fiber) : Ending Success :=
  match f.lastError with
  | some e => .failed (.planExhausted e)
  | none => .idle

variable {ω : Type}

/-- Begins an attempt on a connection. -/
def begin (settings : Settings) (now : Nat) (f : Fiber) (node : Node) (connection : Connection)
    (s : Shared) (w : ω) : Turn ω :=
  let attempt := Attempt.start settings.call f.consistency connection
  { fiber := { f with
      phase := .attempting ⟨s.attempts, node, attempt, settings.timeout.map (now + ·), now⟩ }
    shared := { s with attempts := s.attempts + 1 }
    world := w
    acts := [.began s.attempts f.index node connection,
      .issued s.attempts attempt.stage connection attempt.request] }

/-- Asks a node for a connection and begins an attempt on it. A node without one counts as failed;
no retry session is asked. -/
def visit (env : Environment ω) (settings : Settings) (now : Nat) (f : Fiber) (node : Node)
    (s : Shared) (w : ω) : Visit ω :=
  if s.completed then ⟨false, ⟨{ f with phase := .ended .idle }, s, w, []⟩⟩
  else
    match env.connect node w with
    | (.ok connection, w) => ⟨false, f.begin settings now node connection s w⟩
    | (.error cause, w) =>
      ⟨true, ⟨{ f with lastError := some (.poolBroken cause) },
        s.record node.address (.poolBroken cause), w, [.poolFailed f.index node cause]⟩⟩

theorem visit_plan (env : Environment ω) (settings : Settings) (now : Nat) (f : Fiber)
    (node : Node) (s : Shared) (w : ω) :
    (f.visit env settings now node s w).turn.shared.plan = s.plan := by
  unfold visit
  split
  · rfl
  · split
    · rfl
    · simp only [Shared.record]
      split <;> rfl

/-- Takes nodes from the plan until one gives a connection or the plan ends. -/
def seek (env : Environment ω) (settings : Settings) (now : Nat) (f : Fiber) (s : Shared) (w : ω) :
    Turn ω :=
  let draw := s.plan.next env.chooser w
  let asked := draw.asked.map Act.consulted
  match h : draw.node with
  | none =>
    ⟨{ f with phase := .ended f.exhausted }, { s with plan := draw.plan }, draw.world, asked⟩
  | some node =>
    have closer := Plan.next_decreases h
    let v := f.visit env settings now node { s with plan := draw.plan } draw.world
    let turn :=
      if v.refused then
        (v.turn.fiber.seek env settings now v.turn.shared v.turn.world).after v.turn.acts
      else v.turn
    turn.after (asked ++ [.took f.index node])
termination_by (s.plan.questions, s.plan.candidates)
decreasing_by
  rw [visit_plan]
  rcases closer with hq | ⟨hq, hc⟩
  · exact Prod.Lex.left _ _ hq
  · rw [hq]; exact Prod.Lex.right _ hc

/-- Claims the result, unless another fiber has done so. -/
def complete (f : Fiber) (c : Current) (answer : Answer) (s : Shared) (w : ω) : Turn ω :=
  if s.completed then ⟨{ f with phase := .ended .idle }, s, w, []⟩
  else
    ⟨{ f with
        phase := .ended (.succeeded ⟨answer, c.node, c.attempt.connection.address, f.index⟩) },
      { s with completed := true }, w, [.claimed c.number f.index]⟩

/-- Goes on as the retry session decided. -/
def obey (env : Environment ω) (settings : Settings) (now : Nat) (f : Fiber) (c : Current)
    (error : AttemptError) (s : Shared) (w : ω) : Decision → Turn ω
  | .sameNode consistency =>
    let f := { f with
      consistency := consistency.getD f.consistency
      retries := f.retries + 1 }
    let v := f.visit env settings now c.node s w
    if v.refused then
      (v.turn.fiber.seek env settings now v.turn.shared v.turn.world).after v.turn.acts
    else v.turn
  | .nextNode consistency =>
    let f := { f with
      consistency := consistency.getD f.consistency
      retries := f.retries + 1
      lastError := some error }
    f.seek env settings now s w
  | .stop => ⟨{ f with phase := .ended (.failed (.gaveUp error)) }, s, w, []⟩
  | .ignore => f.complete c .void s w

/-- The report on a failed attempt. -/
def reportOn (settings : Settings) (f : Fiber) (c : Current) (error : AttemptError) : Report :=
  ⟨error, settings.routing.idempotent, f.consistency, c.attempt.written, f.retries⟩

/-- Goes on after a failed attempt: the load balancer is told, the failure noted and the retry
session asked. -/
def fail (env : Environment ω) (settings : Settings) (now : Nat) (f : Fiber) (c : Current)
    (error : AttemptError) (s : Shared) (w : ω) : Turn ω :=
  let report := f.reportOn settings c error
  let w := env.notify (.failed (now - c.since) c.node error) w
  let (decision, session) := f.session.answer (env.lore f.index w) report
  ({ f with session := session }.obey env settings now c error (s.record c.node.address error)
      (env.consult f.index (.reported report) w) decision).after
    [.failed c.number f.index c.node error, .reported f.index report decision]

/-- Goes on after a response with a result: the load balancer is told, and the result claimed. -/
def succeed (env : Environment ω) (now : Nat) (f : Fiber) (c : Current) (answer : Answer)
    (s : Shared) (w : ω) : Turn ω :=
  (f.complete c answer s (env.notify (.succeeded (now - c.since) c.node) w)).after
    [.succeeded c.number f.index c.node]

/-- Goes on after a signal on the request under way. -/
def react (env : Environment ω) (settings : Settings) (now : Nat) (f : Fiber) (c : Current)
    (signal : Signal) (s : Shared) (w : ω) : Turn ω :=
  let heard := Act.heard c.number c.attempt.stage signal
  match c.attempt.react signal with
  | .waits attempt =>
    ⟨{ f with phase := .attempting { c with attempt := attempt } }, s, w, [heard]⟩
  | .sends attempt =>
    ⟨{ f with phase := .attempting { c with attempt := attempt } }, s, w,
      [heard, .issued c.number attempt.stage attempt.connection attempt.request]⟩
  | .ends attempt (.ok answer) =>
    (f.succeed env now { c with attempt := attempt } answer s w).after [heard]
  | .ends attempt (.error error) =>
    (f.fail env settings now { c with attempt := attempt } error s w).after [heard]

/-- Goes on after the time of an attempt is up. -/
def expire (env : Environment ω) (settings : Settings) (now : Nat) (f : Fiber) (c : Current)
    (limit : Nat) (s : Shared) (w : ω) : Turn ω :=
  f.fail env settings now c (.timedOut (.ofMillis limit)) s w

end Fiber

end ClusterClient
