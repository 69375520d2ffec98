import ClusterClient.Address

/-!
# Nodes

A `Node` is one entry of the client's list of nodes: where to connect, what is known of the node's
place in the cluster, and the number of the connection pool that serves it. Pools are numbered in
the order they were made, and several entries may share one.
-/

namespace ClusterClient

/-- The number of a connection pool. -/
abbrev PoolId := Nat

/-- A node of the cluster as the client knows it. -/
structure Node where
  /-- The address connections are made to. -/
  address : Address
  /-- The address the node has inside the cluster, if known. -/
  broadcast : Option Host
  datacenter : Option String
  rack : Option String
  pool : PoolId
  deriving DecidableEq, Repr, Inhabited

end ClusterClient
