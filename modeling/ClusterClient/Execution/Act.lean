import ClusterClient.Balancing.Plan
import ClusterClient.Execution.Attempt
import ClusterClient.Retry.Standard

/-!
# What an execution does

An `Act` is one thing an execution does or lets others know, in the order it happens: the questions
it puts to its load balancer and retry policy, the nodes and connections it takes, the requests it
writes, what it hears back, and the successes and failures it reports. Attempts are numbered in the
order they begin, fibers in the order they are launched.
-/

namespace ClusterClient

/-- One thing an execution does. -/
inductive Act where
  /-- A fiber is launched, with a retry session of its own. -/
  | opened (fiber : Nat)
  | consulted (question : Consulted)
  | took (fiber : Nat) (node : Node)
  /-- The node's pool gave no connection. -/
  | poolFailed (fiber : Nat) (node : Node) (cause : BrokenCause)
  | began (attempt fiber : Nat) (node : Node) (connection : Connection)
  /-- A request is handed to the connection. -/
  | issued (attempt : Nat) (stage : Stage) (connection : Connection) (request : Request)
  /-- The request under way got a signal. -/
  | heard (attempt : Nat) (stage : Stage) (signal : Signal)
  /-- The load balancer is told of a result. -/
  | succeeded (attempt fiber : Nat) (node : Node)
  /-- The load balancer is told of a failure. -/
  | failed (attempt fiber : Nat) (node : Node) (error : AttemptError)
  | reported (fiber : Nat) (report : Report) (decision : Decision)
  /-- A fiber claims the result of the execution. -/
  | claimed (attempt fiber : Nat)

end ClusterClient
