import ClusterClient.Session.Basic

/-!
# Operations of a client

An `Operation` is what a client is asked to do, an `Outcome` what comes of it. A `Notice` is
something the client does on the way that others can see.
-/

namespace ClusterClient

/-- How the rows of a statement are asked for: all at once, or one page from a state on. -/
inductive Paging where
  | unpaged
  | page (state : Option Bytes)
  deriving DecidableEq, Repr

/-- The page size of a request. -/
def Paging.pageSize (p : Paging) (size : PageSize) : PageSize :=
  match p with
  | .unpaged => .unpaged
  | .page _ => size

/-- The state a page is asked for from. -/
def Paging.state : Paging → Option Bytes
  | .unpaged => none
  | .page state => state

/-- What a client is asked to do. -/
inductive Operation where
  | query (statement : Statement) (values : List Value) (paging : Paging)
  | prepare (statement : Statement)
  | execute (statement : PreparedStatement) (values : List Value) (paging : Paging)
  | useKeyspace (name : String) (caseSensitive : Bool)
  /-- Reads the nodes and takes them over; the function makes the pools of new ones. -/
  | refreshCluster (provide : Address → Pool)
  | listNodes
  /-- Reads a known node again, by its address inside the cluster if that is known. -/
  | refreshNode (address : Address) (broadcast : Option Host)
  | findNode (address : Address)
  | openControl
  /-- Puts one query to one connection. -/
  | inquire (connection : Connection) (text : String) (values : BoundValues) (limit : Nat)
      (pageSize : PageSize)

/-- What comes of an operation. -/
inductive Outcome where
  | queried (result : Except ExecutionError QueryResult)
  | prepared (result : Except ExecutionError PreparedStatement)
  | keyspaceUsed (result : Except UseKeyspaceError Unit)
  | refreshed (result : Except MetadataError Unit)
  | listed (result : Except MetadataError (List NodeInfo))
  | found (result : Except MetadataError (Option NodeInfo))
  | controlOpened (result : Except MetadataError Unit)
  | inquired (result : Except AttemptError (List Row))

/-- Which question of an operation an inquiry is. -/
inductive Part where
  | only | localTable | peersTable
  deriving DecidableEq, Repr

/-- Which request of an operation is meant. -/
inductive RequestId where
  | attempt (number : Nat) (stage : Stage)
  | inquiry (part : Part)
  deriving DecidableEq, Repr

/-- A request of a task. -/
structure Ticket where
  task : Nat
  request : RequestId
  deriving DecidableEq, Repr

/-- What an execution does is seen together with the terms of its call. -/
inductive Notice where
  | execution (terms : Terms) (act : Act)
  /-- A request is handed to a connection. -/
  | issued (ticket : Ticket) (connection : Connection) (request : Request)
  | pool (act : PoolAct)
  /-- The control connection is asked to open. -/
  | controlOpening
  /-- A query is put over the control connection. -/
  | inquiring (text : String) (limit : Nat)
  | complaint (text : String)
  | finished (task : Nat) (outcome : Outcome)

end ClusterClient
