import ClusterClient.AttemptError
import ClusterClient.Node

/-!
# Load balancing

A load balancer orders the nodes of the cluster for each request. It is asked for one node with
`BalancerRule.pick` and, if that one does not do, for the whole list of candidates with
`BalancerRule.fallback`. How the attempts on its nodes went comes back to it as `Feedback`
(`BalancerRule.learn`). The round robin counts the picks it made, modulo `2 ^ 64`, and continues the
rotation where it stands; any other balancer is given by its two answers, for which it may use all
the calls it had.
-/

namespace ClusterClient

/-- What a load balancer knows of the request it orders the nodes for. -/
structure Routing where
  consistency : Consistency
  idempotent : Bool
  deriving DecidableEq, Repr

/-- What is known of a request that sets nothing. -/
def Routing.standard : Routing := ⟨default, false⟩

/-- What a load balancer is told of an attempt on a node, with the time it took in milliseconds. -/
inductive Feedback where
  | succeeded (latency : Nat) (node : Node)
  | failed (latency : Nat) (node : Node) (error : AttemptError)

/-- A call of a load balancer. -/
inductive BalancerCall where
  | pick (routing : Routing) (nodes : List Node)
  | fallback (routing : Routing) (nodes : List Node)
  | feedback (routing : Routing) (feedback : Feedback)

/-- How a load balancer answers. One of another kind keeps the calls it had, oldest first. -/
inductive BalancerRule where
  | roundRobin (picks : UInt64)
  | custom (name : String) (calls : List BalancerCall)
      (pick : List BalancerCall → Routing → List Node → Option Node)
      (fallback : List BalancerCall → Routing → List Node → List Node)

/-- The list that starts at a place of the given one and goes round. -/
def rotation (start : Nat) (nodes : List Node) : List Node :=
  nodes.drop start ++ nodes.take start

namespace BalancerRule

/-- The name of a load balancer. -/
def name : BalancerRule → String
  | .roundRobin _ => "RoundRobinPolicy"
  | .custom name _ _ _ => name

/-- A balancer with fixed answers. -/
def fixed (pick : Option Node) (fallback : List Node) : BalancerRule :=
  .custom "Fixed" [] (fun _ _ _ => pick) (fun _ _ _ => fallback)

/-- The first node for a request, if any, and the balancer after it was asked. -/
def pick (b : BalancerRule) (routing : Routing) (nodes : List Node) :
    Option Node × BalancerRule :=
  match b with
  | .roundRobin picks =>
    if nodes = [] then (none, b)
    else (nodes[picks.toNat % nodes.length]?, .roundRobin (picks + 1))
  | .custom name calls pick fallback =>
    (pick calls routing nodes, .custom name (calls ++ [.pick routing nodes]) pick fallback)

/-- The candidates for a request, and the balancer after it was asked. -/
def fallback (b : BalancerRule) (routing : Routing) (nodes : List Node) :
    List Node × BalancerRule :=
  match b with
  | .roundRobin picks => (rotation (picks.toNat % nodes.length) nodes, b)
  | .custom name calls pick fallback =>
    (fallback calls routing nodes, .custom name (calls ++ [.fallback routing nodes]) pick fallback)

/-- The balancer after it was told how an attempt went. -/
def learn (b : BalancerRule) (routing : Routing) (feedback : Feedback) : BalancerRule :=
  match b with
  | .roundRobin _ => b
  | .custom name calls pick fallback =>
    .custom name (calls ++ [.feedback routing feedback]) pick fallback

end BalancerRule

/-- A load balancer; an observed one has its calls reported. -/
structure Balancer where
  rule : BalancerRule
  observed : Bool

/-- The number of a load balancer, in the order they were made. -/
abbrev BalancerId := Nat

end ClusterClient
