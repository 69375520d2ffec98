import ClusterClient.Client.Basic
import ClusterClient.Topology.AddressMap

/-!
# Scripts

A `Script` says everything that goes into a rehearsal of a client: the nodes with what their
connections reply, the profiles, the control connection, and the scenes. A scene is one `Cue`, or
several that run at the same time. A `Reply` is what a connection does with one request.
-/

namespace ClusterClient.Rehearsal

/-- What becomes of a request. -/
inductive Effect where
  | writeFails (cause : BrokenCause)
  | comesBack (delivery : Delivery)
  /-- Nothing ever comes back. -/
  | silence

/-- What a connection does with one request: the time its write takes, what becomes of it, and the
time until then, both in milliseconds. -/
structure Reply where
  effect : Effect
  writeAfter : Nat
  after : Nat

/-- What a connection does once its replies are used up. -/
def Reply.standard : Reply := ⟨.comesBack (.ok ⟨.result .void, .none⟩), 0, 0⟩

/-- The address a pool's connections are opened against if it is not the node's, what they reply,
and why the pool has none to give. -/
structure PoolScript where
  endpoint : Option Address
  replies : List Reply
  broken : Option BrokenCause

/-- A pool that works and replies nothing special. -/
def PoolScript.standard : PoolScript := ⟨none, [], none⟩

/-- A pool of a node. -/
def PoolScript.pool (p : PoolScript) (address : Address) : Pool :=
  ⟨p.endpoint.getD address, p.broken, []⟩

/-- A node the session starts with. -/
structure NodeScript where
  address : Address
  broadcast : Option Host
  datacenter : Option String
  rack : Option String
  pool : PoolScript

/-- A load balancer to make; a fixed one names nodes by their place among the first ones. -/
inductive BalancerScript where
  | roundRobin
  | fixed (pick : Option Nat) (fallback : List Nat)

/-- A retry policy to make; a scripted one takes one decision for each report. -/
inductive RetryScript where
  | standard
  | never
  | decisions (list : List Decision)

/-- The rule of a retry policy. -/
def RetryScript.rule : RetryScript → RetryRule
  | .standard => .standard
  | .never => .never
  | .decisions list => .scripted list

/-- A profile to build: where to start, and what to change. -/
structure ProfileScript where
  start : Option String
  consistency : Option Consistency
  timeout : Option (Option Nat)
  retry : Option RetryScript
  balancer : Option BalancerScript
  speculation : Option (Option Speculation)

/-- Settings to put into a statement; a profile is named by its handle. -/
structure ConfigScript where
  consistency : Option Consistency
  idempotent : Option Bool
  timeout : Option (Option Nat)
  retry : Option (Option RetryScript)
  balancer : Option (Option BalancerScript)
  handle : Option (Option String)
  pageSize : Option PageSize

/-- One thing to do. -/
inductive Cue where
  | query (text : String) (values : List Value) (paging : Paging) (config : ConfigScript)
  | prepare (text : String) (name : String) (config : ConfigScript)
  | execute (name : String) (values : List Value) (paging : Paging) (config : ConfigScript)
  | useKeyspace (name : String) (caseSensitive : Bool)
  | push (connection : ConnectionId) (replies : List Reply)
  | breakPool (pool : PoolId) (cause : Option BrokenCause)
  | sleep (time : Nat)
  | mapProfile (handle : String) (profile : ProfileScript)
  | reconnect (address : Address) (replies : List Reply)
  | breakControl (cause : Option BrokenCause)
  | overview
  | openControl
  | listNodes
  | refreshNode (address : Address) (broadcast : Option Host)
  | findNode (address : Address)
  | port
  | refreshCluster
  | inquire (connection : ConnectionId) (text : String) (values : BoundValues) (limit : Nat)
      (pageSize : PageSize)

/-- One cue, or several that start after some time each and run at the same time. -/
inductive Scene where
  | single (cue : Cue)
  | together (cues : List (Nat × Cue))

/-- The control connection at the start. -/
structure ControlScript where
  address : Address
  replies : List Reply
  unavailable : Option BrokenCause
  openings : List (Option BrokenCause)

/-- The monitor of the cluster's nodes. One that stands alone has a time of its own for each query,
the other takes that of the session. -/
structure MonitorScript where
  standalone : Bool
  limit : Option Nat
  /-- Whether queries over the control connection are recorded. -/
  recorded : Bool

/-- Everything that goes into a rehearsal. -/
structure Script where
  nodes : List NodeScript
  profiles : List (String × ProfileScript)
  /-- The handle of statements that have none of their own. -/
  handle : Option String
  keyspace : Option String
  controlLimit : Nat
  control : ControlScript
  monitor : MonitorScript
  addressMap : AddressMap
  /-- The pools of nodes that are found later. -/
  laterPools : List (Address × PoolScript)
  scenes : List Scene

/-- The pool of a node that is found later. -/
def Script.laterPool (s : Script) (address : Address) : PoolScript :=
  (s.laterPools.lookup address).getD .standard

end ClusterClient.Rehearsal
