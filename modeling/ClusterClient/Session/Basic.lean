import ClusterClient.Execution.Basic
import ClusterClient.Keyspace
import ClusterClient.Statement
import ClusterClient.Topology.Monitor

/-!
# Sessions

A `Session` is what all operations of a client share: the nodes it knows, the keyspace in use, the
connection pools with what they were told, the load balancers, what was asked of the retry policies,
and the targets of the profile handles. Two operations change the nodes and the keyspace:
`Session.useKeyspace` switches the keyspace and tells the pool of every node, `Session.adopt` takes
over a list of nodes that was read from the cluster.
-/

namespace ClusterClient

/-- A pool of connections to one node. -/
structure Pool where
  /-- The address its connections are opened against. -/
  endpoint : Address
  /-- Why the pool has no connection to give, if it has none. -/
  broken : Option BrokenCause
  /-- The keyspaces the pool was told to use, oldest first. -/
  told : List String

/-- What the operations of a client share. -/
structure Session where
  nodes : List Node
  keyspace : Option String
  pools : List Pool
  balancers : List Balancer
  /-- What was asked of the retry policies, oldest first. -/
  consultations : List (RetrySessionId × Consultation)
  targets : Targets
  /-- The handle of statements that have none of their own. -/
  handle : HandleId
  /-- The time of each query over the control connection, in milliseconds. -/
  controlLimit : Nat

/-- What a session does to its pools. -/
inductive PoolAct where
  | told (pool : PoolId) (keyspace : String)
  | opened (pool : PoolId) (address : Address)
  deriving DecidableEq, Repr

namespace Session

/-- Tells a pool to use a keyspace. -/
def tell (s : Session) (pool : PoolId) (keyspace : String) : Session :=
  { s with pools := s.pools.modify pool fun p => { p with told := p.told ++ [keyspace] } }

/-- Switches the keyspace and tells the pool of every node. -/
def useKeyspace (s : Session) (keyspace : String) : Session × List PoolAct :=
  (s.nodes.foldl (fun s n => s.tell n.pool keyspace) { s with keyspace := some keyspace },
    s.nodes.map fun n => .told n.pool keyspace)

/-- A session over some nodes, which are told the keyspace to start with. -/
def start (nodes : List Node) (pools : List Pool) (balancers : List Balancer) (targets : Targets)
    (handle : HandleId) (controlLimit : Nat) (keyspace : Option String) :
    Session × List PoolAct :=
  let s : Session := ⟨nodes, none, pools, balancers, [], targets, handle, controlLimit⟩
  match keyspace with
  | none => (s, [])
  | some k => s.useKeyspace k

/-- Makes a pool, which is told the keyspace in use. -/
def openPool (s : Session) (pool : Pool) (address : Address) (keyspace : Option String) :
    Session × List PoolAct :=
  let id := s.pools.length
  let s := { s with pools := s.pools ++ [pool] }
  match keyspace with
  | none => (s, [.opened id address])
  | some k => (s.tell id k, [.opened id address, .told id k])

/-- Takes over one node that was read: the pool is that of the first known node at its address, or
a new one. A node without an address is left out. -/
def adoptOne (provide : Address → Pool) (known : List Node)
    (state : Session × List Node × List PoolAct) (info : NodeInfo) :
    Session × List Node × List PoolAct :=
  let (s, nodes, acts) := state
  match info.connect with
  | none => state
  | some address =>
    let entry (pool : PoolId) : Node :=
      ⟨address, info.broadcast, info.datacenter, info.rack, pool⟩
    match known.find? (·.address = address) with
    | some n => (s, nodes ++ [entry n.pool], acts)
    | none =>
      let (s', more) := s.openPool (provide address) address s.keyspace
      (s', nodes ++ [entry s.pools.length], acts ++ more)

/-- Takes over the nodes that were read. Known nodes keep their pools; `provide` makes those of the
others. -/
def adopt (provide : Address → Pool) (s : Session) (infos : List NodeInfo) :
    Session × List PoolAct :=
  let (s, nodes, acts) := infos.foldl (adoptOne provide s.nodes) (s, [], [])
  ({ s with nodes := nodes }, acts)

/-- Makes a load balancer. -/
def addBalancer (s : Session) (b : Balancer) : BalancerId × Session :=
  (s.balancers.length, { s with balancers := s.balancers ++ [b] })

/-- The profile a statement is executed with: that of its own handle, or of the session's. -/
def profileOf (s : Session) (c : StatementConfig) : Profile :=
  (s.targets.profile? (c.handle.getD s.handle)).getD (.standard 0)

/-- Asks a load balancer for a first node. -/
def pick (balancer : BalancerId) (routing : Routing) (nodes : List Node) (s : Session) :
    Option Node × Session :=
  match s.balancers[balancer]? with
  | none => (none, s)
  | some b =>
    let (node, rule) := b.rule.pick routing nodes
    (node, { s with balancers := s.balancers.set balancer { b with rule := rule } })

/-- Asks a load balancer for the candidates. -/
def fallback (balancer : BalancerId) (routing : Routing) (nodes : List Node) (s : Session) :
    List Node × Session :=
  match s.balancers[balancer]? with
  | none => ([], s)
  | some b =>
    let (candidates, rule) := b.rule.fallback routing nodes
    (candidates, { s with balancers := s.balancers.set balancer { b with rule := rule } })

/-- Asks the pool of a node for a connection. -/
def connect (node : Node) (s : Session) : Except BrokenCause Connection × Session :=
  match s.pools[node.pool]? with
  | none => (.error .closed, s)
  | some p =>
    match p.broken with
    | some cause => (.error cause, s)
    | none => (.ok ⟨.pool node.pool, p.endpoint⟩, s)

/-- Tells a load balancer how an attempt went. -/
def notify (balancer : BalancerId) (routing : Routing) (feedback : Feedback) (s : Session) :
    Session :=
  { s with balancers := s.balancers.modify balancer fun b =>
      { b with rule := b.rule.learn routing feedback } }

/-- What a retry session can go by beside the reports it got. -/
def lore (id : RetrySessionId) (s : Session) : Lore :=
  ⟨id, s.consultations⟩

/-- Keeps what is asked of a retry session. -/
def consult (id : RetrySessionId) (c : Consultation) (s : Session) : Session :=
  { s with consultations := s.consultations ++ [(id, c)] }

/-- Where an execution over some nodes gets its plan and connections from, and where its policies
learn how it goes. The fibers' retry sessions are of one policy and one call. -/
def environment (balancer : BalancerId) (routing : Routing) (nodes : List Node) (policy : String)
    (call : Nat) : Environment Session where
  chooser := ⟨pick balancer routing nodes, fallback balancer routing nodes⟩
  connect := connect
  notify := notify balancer routing
  lore fiber := lore ⟨policy, call, fiber⟩
  consult fiber := consult ⟨policy, call, fiber⟩

end Session

/-- What is settled when a statement's execution starts: the settings of the execution, and who is
asked about nodes and retries. -/
structure Terms where
  settings : Settings
  speculation : Option Speculation
  balancer : BalancerId
  /-- How much had been asked of the retry policies at the start, which tells the retry sessions of
  the call from those of others. -/
  call : Nat
  /-- The nodes known at the start. -/
  nodes : List Node
  /-- Whether the calls of the load balancer are reported. -/
  balancerObserved : Bool
  /-- Whether the calls of the retry policy are reported. -/
  retryObserved : Bool

namespace Terms

/-- The terms of a call: what the statement leaves open is taken from the profile. Only a statement
that may be applied more than once is executed speculatively. -/
def ofCall (s : Session) (config : StatementConfig) (call : Call) : Terms :=
  let profile := s.profileOf config
  let retry := config.retry.getD profile.retry
  let balancer := config.balancer.getD profile.balancer
  let consistency := config.consistency.getD profile.consistency
  { settings :=
      { call := call
        routing := ⟨consistency, config.idempotent⟩
        timeout := config.timeout.or profile.timeout
        retry := retry.rule }
    speculation := if config.idempotent then profile.speculation else none
    balancer := balancer
    call := s.consultations.length
    nodes := s.nodes
    balancerObserved := (s.balancers[balancer]?.map (·.observed)).getD false
    retryObserved := retry.observed }

/-- Where the execution gets its plan and connections from, and where its policies learn how it
goes. -/
def environment (t : Terms) : Environment Session :=
  Session.environment t.balancer t.settings.routing t.nodes t.settings.retry.name t.call

end Terms

end ClusterClient
