import ClusterClient.AttemptError
import ClusterClient.Node

/-!
# Outcomes of executions

An execution ends with a result or with an `ExecutionError`. Either way `ExecutionInfo` holds what
was learned on the way; only an empty plan and a response of the wrong kind come without it.
-/

namespace ClusterClient

/-- The node whose response ended an execution, and the address of the connection it came over. -/
structure Coordinator where
  node : Node
  connection : Address

/-- What was learned while a statement was executed, over all its attempts. -/
structure ExecutionInfo where
  coordinator : Option Coordinator
  /-- The failures, oldest first, each with the address of the node tried. -/
  errors : List (Address × AttemptError)
  payload : List (String × Bytes)
  pagingState : Option Bytes
  /-- How many fibers were launched beside the first. -/
  speculative : Nat
  /-- The number of the fiber that succeeded, in the order of launches. -/
  successIndex : Option Nat
  warnings : List String
  tracing : Option Uuid

/-- What is known of an execution that did nothing. -/
def ExecutionInfo.empty : ExecutionInfo := ⟨none, [], [], none, 0, none, [], none⟩

/-- Why an execution failed as a whole. -/
inductive ExecutionError where
  /-- The load balancer gave no node. -/
  | emptyPlan
  /-- The last attempt got no response in time, and none followed. -/
  | requestTimeout (limit : Duration) (info : ExecutionInfo)
  /-- Every node of the plan was tried and failed. -/
  | allNodesFailed (info : ExecutionInfo)
  /-- The retry policy stopped after this error. -/
  | lastAttempt (error : AttemptError) (info : ExecutionInfo)
  /-- A response of a kind the operation cannot use. -/
  | unexpectedResponse (kind : ResponseKind)

namespace ExecutionError

/-- What was learned before the execution failed. -/
def info? : ExecutionError → Option ExecutionInfo
  | .requestTimeout _ info | .allNodesFailed info | .lastAttempt _ info => some info
  | .emptyPlan | .unexpectedResponse _ => none

/-- The failures of the attempts. -/
def errors (e : ExecutionError) : List (Address × AttemptError) :=
  (e.info?.map (·.errors)).getD []

/-- The failures of the attempts, in words. -/
def describeErrors (errors : List (Address × AttemptError)) : String :=
  if errors = [] then "no node errors recorded"
  else
    "errors per node: [" ++
      ", ".intercalate (errors.map fun (node, e) => node.text ++ ": " ++ e.message) ++ "]"

/-- The text of an error. -/
def message : ExecutionError → String
  | .emptyPlan => "Load balancing policy returned an empty plan"
  | .requestTimeout limit info =>
    "Request timed out after " ++ limit.text ++ "; " ++ describeErrors info.errors
  | .allNodesFailed info => "All nodes in the query plan failed; " ++ describeErrors info.errors
  | .lastAttempt error info => error.message ++ "; " ++ describeErrors info.errors
  | .unexpectedResponse kind => "Received unexpected response from the server: " ++ kind.name

end ExecutionError

/-- The result of a statement: its rows, if it has any, and what was learned on the way. -/
structure QueryResult where
  rows : Option Rows
  info : ExecutionInfo

/-- Splits an answer into rows and what goes with the execution's information. -/
def QueryResult.ofAnswer (a : Answer) (info : ExecutionInfo) : QueryResult :=
  let info := { info with
    tracing := a.extras.tracing
    warnings := a.extras.warnings
    payload := a.extras.payload.getD [] }
  match a.body with
  | .rows rows =>
    ⟨some { rows with pagingState := none }, { info with pagingState := rows.pagingState }⟩
  | _ => ⟨none, info⟩

end ClusterClient
