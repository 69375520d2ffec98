import ClusterClient.Topology.Inquiry
import ClusterClient.Topology.NodeInfo

/-!
# Reading the cluster's nodes

A `Monitor` reads the nodes of the cluster over the control connection. The system tables know
hosts only, so the port all nodes share is taken from the control connection the first time it is
needed and kept from then on (`Monitor.capture`).

A `Listing` reads all nodes: it asks for the control node's own row and for its peers at once, and
the first failure ends it. A `Lookup` reads one node from the peers. Both are driven by signals, and
give their result once they have it.
-/

namespace ClusterClient

/-- Why the nodes could not be read. -/
inductive MetadataError where
  /-- The control connection could not be opened. -/
  | controlInit (cause : BrokenCause)
  /-- There is no control connection at the moment. -/
  | controlUnavailable (cause : BrokenCause)
  | query (table : String) (error : AttemptError)
  /-- The control node returned no row for itself. -/
  | emptyLocalResult

/-- The text of an error. -/
def MetadataError.message : MetadataError → String
  | .controlInit cause => "Could not initialize the control connection: " ++ cause.message
  | .controlUnavailable cause => "Control connection is unavailable: " ++ cause.poolMessage
  | .query table error => "Querying " ++ table ++ " failed: " ++ error.message
  | .emptyLocalResult => "system.local returned no rows"

/-- What the control connection does: the address it is open to or why it is not open, and how the
next calls to open it end. -/
structure Control where
  address : Address
  unavailable : Option BrokenCause
  openings : List (Option BrokenCause)

namespace Control

/-- The open connection. -/
def connection (c : Control) : Except MetadataError Connection :=
  match c.unavailable with
  | some cause => .error (.controlUnavailable cause)
  | none => .ok ⟨.control, c.address⟩

/-- Opens the connection. -/
def init (c : Control) : Except MetadataError Unit × Control :=
  match c.openings with
  | some cause :: later => (.error (.controlInit cause), { c with openings := later })
  | _ => (.ok (), { c with openings := c.openings.tail })

end Control

/-- The time of each query where nothing else is said, in milliseconds. -/
def standardControlLimit : Nat := 5000

/-- What is kept between the readings of the nodes. -/
structure Monitor where
  /-- The port all nodes share, once it is known. -/
  port : Option UInt16
  /-- The time of each query, in milliseconds. -/
  limit : Nat
  /-- Where a client reaches a reported address. -/
  resolve : Address → Address

namespace Monitor

/-- A monitor that has read nothing. -/
def fresh (limit : Nat) (resolve : Address → Address) : Monitor := ⟨none, limit, resolve⟩

/-- The shared port: the one known, or else that of the connection. -/
def sharedPort (m : Monitor) (c : Connection) : UInt16 :=
  m.port.getD c.address.port

/-- Keeps the shared port. -/
def capture (m : Monitor) (c : Connection) : Monitor :=
  { m with port := some (m.sharedPort c) }

/-- An inquiry over the control connection, within the monitor's time. -/
def inquiry (m : Monitor) (c : Connection) (text : String) (values : BoundValues) (now : Nat) :
    Inquiry :=
  .start c text values m.limit .unpaged now

/-- Reads a row of a table. -/
def info (m : Monitor) (port : UInt16) (t : SystemTable) (r : Row) : NodeInfo :=
  .ofRow m.resolve port t r

end Monitor

/-- The nodes read from rows, with the tables they come from. -/
abbrev Reading := List (SystemTable × NodeInfo)

/-- The nodes read. -/
def Reading.nodes (r : Reading) : List NodeInfo :=
  r.map (·.2)

/-- The complaints about nodes that cannot be connected to. -/
def Reading.complaints (r : Reading) : List String :=
  r.filterMap fun (t, i) => i.complaint? t

/-- A reading of all nodes under way. -/
structure Listing where
  connection : Connection
  port : UInt16
  localInquiry : Inquiry
  /-- The question for the peers, once it is put. -/
  peersInquiry : Option Inquiry

namespace Listing

/-- Starts with the question for the control node's own row. -/
def start (m : Monitor) (c : Connection) (now : Nat) : Listing :=
  ⟨c, m.sharedPort c, m.inquiry c SystemTable.localNode.selectAll .none now, none⟩

/-- Puts the question for the peers. -/
def askPeers (m : Monitor) (l : Listing) (now : Nat) : Listing :=
  { l with
    peersInquiry := some (m.inquiry l.connection SystemTable.peers.selectAll .none now) }

/-- The nodes of the two results: the control node first, then the peers in their order. -/
def combine (m : Monitor) (port : UInt16) (ownRows peerRows : List Row) :
    Except MetadataError Reading :=
  match ownRows with
  | [] => .error .emptyLocalResult
  | own :: _ =>
    .ok ((.localNode, m.info port .localNode own) ::
      peerRows.map fun r => (.peers, m.info port .peers r))

/-- The result: the first failure, or the nodes once both questions are answered. -/
def result? (m : Monitor) (l : Listing) : Option (Except MetadataError Reading) :=
  match l.localInquiry.result, l.peersInquiry.bind (·.result) with
  | some (.error e), _ => some (.error (.query SystemTable.localNode.name e))
  | _, some (.error e) => some (.error (.query SystemTable.peers.name e))
  | some (.ok own), some (.ok peers) => some (combine m l.port own peers)
  | _, _ => none

end Listing

/-- Which of the peers is looked for. -/
inductive Wanted where
  /-- The first row that comes back. -/
  | first
  /-- The first row to be connected to at an address. -/
  | at (address : Address)
  deriving DecidableEq, Repr

/-- A reading of one node under way. -/
structure Lookup where
  port : UInt16
  wanted : Wanted
  inquiry : Inquiry

namespace Lookup

/-- Looks for a node at an address among all peers. -/
def scan (m : Monitor) (c : Connection) (address : Address) (now : Nat) : Lookup :=
  ⟨m.sharedPort c, .at address, m.inquiry c SystemTable.peers.selectAll .none now⟩

/-- Asks for the peer with a host inside the cluster. -/
def byBroadcast (m : Monitor) (c : Connection) (host : Host) (now : Nat) : Lookup :=
  ⟨m.sharedPort c, .first,
    m.inquiry c selectPeer (.named [("address", .inet host)]) now⟩

/-- Picks the node that is looked for from rows of the peers. -/
def choose (m : Monitor) (port : UInt16) (wanted : Wanted) (rows : List Row) : Reading :=
  let row? :=
    match wanted with
    | .first => rows.head?
    | .at address =>
      rows.find? fun r => NodeInfo.connectAddress? m.resolve port r = some address
  (row?.map fun r => (SystemTable.peers, m.info port .peers r)).toList

/-- The result, once the question is answered: a reading of one node or none. -/
def result? (m : Monitor) (l : Lookup) : Option (Except MetadataError Reading) :=
  l.inquiry.result.map fun
    | .error e => .error (.query SystemTable.peers.name e)
    | .ok rows => .ok (choose m l.port l.wanted rows)

end Lookup

end ClusterClient
