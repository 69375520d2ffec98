import ClusterClient.Row

/-!
# What the system tables say about nodes

Every node keeps a table with one row for itself and a table with a row for each of its peers. The
two share most columns but name a node's own address differently (`SystemTable.broadcastColumn`).
`NodeInfo.ofRow` reads a row; a node without an address for clients cannot be connected to
(`NodeInfo.complaint?`).
-/

namespace ClusterClient

/-- The two tables that describe nodes. -/
inductive SystemTable where
  | localNode | peers
  deriving DecidableEq, Repr

namespace SystemTable

/-- The name of a table. -/
def name : SystemTable → String
  | .localNode => "system.local"
  | .peers => "system.peers"

/-- What a row of the table describes. -/
def subject : SystemTable → String
  | .localNode => "local node"
  | .peers => "peer"

/-- The column that holds a node's address inside the cluster. -/
def broadcastColumn : SystemTable → String
  | .localNode => "broadcast_address"
  | .peers => "peer"

/-- The query for all rows of the table. -/
def selectAll (t : SystemTable) : String :=
  "SELECT * FROM " ++ t.name

end SystemTable

/-- The query for the peer at a bound address. -/
def selectPeer : String :=
  SystemTable.peers.selectAll ++ " WHERE peer = :address"

/-- A node as the system tables describe it. -/
structure NodeInfo where
  /-- The address for clients, if the node reported one. -/
  connect : Option Address
  broadcast : Option Host
  listen : Option Host
  datacenter : Option String
  rack : Option String
  release : Option String
  /-- The tokens the node owns, sorted. -/
  tokens : List String
  deriving DecidableEq, Repr

namespace NodeInfo

/-- The address to connect to a node at: that of the reported host at the port all nodes share, as
clients reach it. -/
def connectAddress? (resolve : Address → Address) (port : UInt16) (r : Row) : Option Address :=
  (r.host? "rpc_address").map fun h => resolve ⟨h, port⟩

/-- Reads a row of a system table. -/
def ofRow (resolve : Address → Address) (port : UInt16) (t : SystemTable) (r : Row) : NodeInfo :=
  { connect := connectAddress? resolve port r
    broadcast := r.host? t.broadcastColumn
    listen := r.host? "listen_address"
    datacenter := r.text? "data_center"
    rack := r.text? "rack"
    release := r.text? "release_version"
    tokens := (r.textSet? "tokens").getD [] }

/-- The text of a host that may be unknown. -/
def hostText : Option Host → String
  | none => "None"
  | some h => "Some(" ++ h.text ++ ")"

/-- The complaint about a node that cannot be connected to. -/
def complaint? (t : SystemTable) (i : NodeInfo) : Option String :=
  match i.connect with
  | some _ => none
  | none =>
    some (t.subject ++ " (broadcast address: " ++ hostText i.broadcast ++
      ") has no rpc_address; it will not be reachable")

end NodeInfo

end ClusterClient
