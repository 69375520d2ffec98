import ClusterClient.AttemptError
import ClusterClient.Node
import ClusterClient.Request

/-!
# Attempts

An `Attempt` is one try of a call on one connection. It writes the call's request and waits for the
response; a node that does not know a prepared statement gets it prepared again and is then asked
once more, all over the same connection (`Stage`). What the connection reports comes in as a
`Signal`, and `Attempt.react` says what the attempt does next (`Progress`).

`Attempt.written` holds as long as a request that may have been applied is known to be on the
connection: a preparation never counts, and neither does a request the node refused as unprepared.
-/

namespace ClusterClient

/-- What a connection belongs to. -/
inductive ConnectionId where
  | pool (id : PoolId)
  | control
  deriving DecidableEq, Repr

/-- A connection, with the address it is opened against. -/
structure Connection where
  id : ConnectionId
  address : Address
  deriving DecidableEq, Repr

/-- What comes back for a written request: a response, or that the connection broke. -/
abbrev Delivery := Except BrokenCause Response

/-- What a connection reports on a request. -/
inductive Signal where
  | acknowledged
  | writeFailed (cause : BrokenCause)
  | delivered (delivery : Delivery)

/-- Which request of an attempt is under way. -/
inductive Stage where
  | first | reprepare | repeated
  deriving DecidableEq, Repr

/-- One try of a call on one connection. -/
structure Attempt where
  call : Call
  consistency : Consistency
  connection : Connection
  stage : Stage
  /-- Whether the request under way was acknowledged, so that its response is waited for. -/
  acknowledged : Bool
  /-- Whether a request that may have been applied got onto the connection. -/
  written : Bool

/-- What an attempt does next. -/
inductive Progress where
  | waits (attempt : Attempt)
  /-- The attempt writes its next request. -/
  | sends (attempt : Attempt)
  | ends (attempt : Attempt) (result : Except AttemptError Answer)

namespace Attempt

/-- An attempt that is about to write its first request. -/
def start (call : Call) (consistency : Consistency) (connection : Connection) : Attempt :=
  ⟨call, consistency, connection, .first, false, false⟩

/-- The request under way. -/
def request (a : Attempt) : Request :=
  match a.stage with
  | .reprepare => .prepare a.call.text
  | .first | .repeated => a.call.request a.consistency

/-- Goes on after the response to the call's own request: a prepared statement the node does not
know is prepared again. -/
def afterFirst (a : Attempt) (r : Response) : Progress :=
  match a.call.preparedId?, r.answer with
  | some _, .error (.refused (.unprepared _) _) =>
    .sends { a with stage := .reprepare, acknowledged := false, written := false }
  | _, result => .ends a result

/-- Goes on after the response to the preparation: the same identifier lets the call be repeated. -/
def afterReprepare (a : Attempt) (r : Response) : Progress :=
  match r.answer with
  | .error e => .ends a (.error e)
  | .ok answer =>
    match a.call.preparedId?, answer.body with
    | some id, .prepared got =>
      if got = id then .sends { a with stage := .repeated, acknowledged := false }
      else .ends a (.error (.idChanged a.call.text id got))
    | _, _ => .ends a (.error (.unexpected .result))

/-- Goes on after what came back for the request under way. -/
def receive (a : Attempt) : Delivery → Progress
  | .error cause => .ends a (.error (.connectionBroken cause))
  | .ok r =>
    match a.stage with
    | .first => a.afterFirst r
    | .reprepare => a.afterReprepare r
    | .repeated => .ends a r.answer

/-- Whether a signal can come for the request under way: a request is acknowledged or fails to be
written first, and only an acknowledged one is answered. -/
def expects (a : Attempt) : Signal → Bool
  | .acknowledged | .writeFailed _ => !a.acknowledged
  | .delivered _ => a.acknowledged

/-- What an attempt does on a signal it expects. -/
def react (a : Attempt) : Signal → Progress
  | .acknowledged =>
    .waits { a with acknowledged := true, written := a.written || a.stage ≠ .reprepare }
  | .writeFailed cause => .ends a (.error (.writeFailed cause))
  | .delivered d => a.receive d

end Attempt

end ClusterClient
