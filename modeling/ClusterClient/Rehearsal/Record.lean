import ClusterClient.Rehearsal.Transport

/-!
# Records

What a rehearsal writes down. An `Entry` is one thing seen, a `Result` is what came of a cue, and a
`SceneRecord` is what was seen of one scene. Calls of a policy are written down if the policy is
observed.
-/

namespace ClusterClient.Rehearsal

/-- One thing seen. -/
inductive Entry where
  | transport (sighting : Sighting)
  | poolBroken (pool : PoolId)
  | pool (act : PoolAct)
  | controlOpening
  | inquiring (text : String) (limit : Nat)
  | retrySession
  | retry (report : Report) (decision : Decision)
  | pick (routing : Routing) (node : Option Address)
  | fallback
  | success (node : Address)
  | failure (node : Address) (error : AttemptError)
  | warning (text : String)
  | error (text : String)

/-- The complaint of a plan without nodes. -/
def gaveNoNodeText : String := "Load balancing policy gave no node to send the request to"

/-- What is written down of a plan's question to its load balancer. -/
def Entry.ofConsulted (terms : Terms) : Consulted → List Entry
  | .pick answer =>
    if terms.balancerObserved then
      [.pick terms.settings.routing (answer.map (·.address))]
    else []
  | .fallback => if terms.balancerObserved then [.fallback] else []
  | .gaveNoNode => [.error gaveNoNodeText]

/-- What is written down of an execution. -/
def Entry.ofAct (terms : Terms) : Act → List Entry
  | .opened _ => if terms.retryObserved then [.retrySession] else []
  | .consulted question => ofConsulted terms question
  | .poolFailed _ node _ => [.poolBroken node.pool]
  | .succeeded _ _ node => if terms.balancerObserved then [.success node.address] else []
  | .failed _ _ node e => if terms.balancerObserved then [.failure node.address e] else []
  | .reported _ report decision => if terms.retryObserved then [.retry report decision] else []
  | .took .. | .began .. | .issued .. | .heard .. | .claimed .. => []

/-- The settings of a statement as they are shown. -/
structure ConfigView where
  consistency : Option Consistency
  idempotent : Bool
  timeout : Option Nat
  hasRetry : Bool
  balancer : Option String
  label : Option String
  pageSize : PageSize

/-- Shows the settings of a statement. -/
def ConfigView.of (balancers : List Balancer) (targets : Targets) (c : StatementConfig)
    (pageSize : PageSize) : ConfigView :=
  { consistency := c.consistency
    idempotent := c.idempotent
    timeout := c.timeout
    hasRetry := c.retry.isSome
    balancer := c.balancer.bind fun b => balancers[b]?.map (·.rule.name)
    label := c.handle.bind targets.label?
    pageSize := pageSize }

/-- What a session shows of itself. -/
structure Overview where
  nodes : List Node
  port : Option UInt16
  label : Option String
  consistency : Consistency
  timeout : Option Nat

/-- Shows a client. -/
def Overview.of (c : Client) : Overview :=
  let profile := c.session.profileOf .standard
  { nodes := c.session.nodes
    port := c.monitor.port
    label := c.session.targets.label? c.session.handle
    consistency := profile.consistency
    timeout := profile.timeout }

/-- What came of a cue. -/
inductive Result where
  | nothing
  /-- No statement was prepared under the name. -/
  | notPrepared
  | query (result : Except ExecutionError QueryResult)
  | prepared (result : Except ExecutionError (PreparedStatement × ConfigView))
  | keyspaceUsed (result : Except UseKeyspaceError Unit)
  | overview (view : Overview)
  | port (port : Option UInt16)
  | controlOpened (result : Except MetadataError Unit)
  | nodeList (result : Except MetadataError (List NodeInfo))
  | node (result : Except MetadataError (Option NodeInfo))
  | cluster (result : Except MetadataError (List Node))
  | rows (result : Except AttemptError (List Row))

/-- What came of an operation, as it is written down. -/
def Result.ofOutcome (c : Client) : Outcome → Result
  | .queried r => .query r
  | .prepared r =>
    .prepared (r.map fun s =>
      (s, .of c.session.balancers c.session.targets s.config s.pageSize))
  | .keyspaceUsed r => .keyspaceUsed r
  | .refreshed r => .cluster (r.map fun _ => c.session.nodes)
  | .listed r => .nodeList r
  | .found r => .node r
  | .controlOpened r => .controlOpened r
  | .inquired r => .rows r

/-- How a cue ended: with its result after some time, or not at all. -/
inductive CueEnd where
  | came (result : Result) (elapsed : Nat)
  | stuck

/-- Whether a cue never ended. -/
def CueEnd.isStuck : CueEnd → Bool
  | .came .. => false
  | .stuck => true

/-- How a scene ended: as its cue did, or as several did, and after what time if all of them came to
an end. -/
inductive SceneEnd where
  | single (ending : CueEnd)
  | together (endings : List CueEnd) (elapsed : Option Nat)

/-- What was seen of one scene: the entries with their times since it began, how it ended, and the
keyspace of the session then. -/
structure SceneRecord where
  entries : List (Nat × Entry)
  ending : SceneEnd
  keyspace : Option String

/-- What was seen of a rehearsal: first how the session was made, then every scene. -/
structure Record where
  opening : List Entry
  keyspace : Option String
  scenes : List SceneRecord

end ClusterClient.Rehearsal
