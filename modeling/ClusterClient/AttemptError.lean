import ClusterClient.Response
import ClusterClient.Text.Duration

/-!
# Failures of one attempt

An `AttemptError` says why one try of a request on one node failed. `Response.answer` sorts the
responses of a node into answers and such failures.
-/

namespace ClusterClient

/-- Why a connection broke. -/
inductive BrokenCause where
  | closed
  | writeFailed (reason : String)
  deriving DecidableEq, Repr

/-- The text of a broken connection. -/
def BrokenCause.message : BrokenCause → String
  | .closed => "Connection broken: Connection closed before a response arrived"
  | .writeFailed reason => "Connection broken: Write failed: " ++ reason

/-- The text of a pool that has no connection to give, with the last failure of its connections. -/
def BrokenCause.poolMessage (c : BrokenCause) : String :=
  "Connection pool is broken, last connection error: " ++ c.message

/-- Why one try of a request on one node failed. -/
inductive AttemptError where
  /-- The node's pool gave no connection. -/
  | poolBroken (cause : BrokenCause)
  /-- The request could not be written, so it never reached the node. -/
  | writeFailed (cause : BrokenCause)
  /-- The connection broke after the request was written. -/
  | connectionBroken (cause : BrokenCause)
  /-- The node answered with an error, for the given reason. -/
  | refused (error : ServerError) (reason : String)
  /-- No response came within the time an attempt has. -/
  | timedOut (limit : Duration)
  /-- Preparing the statement again gave it another identifier. -/
  | idChanged (text : String) (expected got : Bytes)
  /-- The node answered with a response the request cannot have. -/
  | unexpected (kind : ResponseKind)
  deriving DecidableEq, Repr

namespace AttemptError

/-- The text of a failure. -/
def message : AttemptError → String
  | .poolBroken cause => cause.poolMessage
  | .writeFailed cause => "Failed to write the request: " ++ cause.message
  | .connectionBroken cause => cause.message
  | .refused error reason => "Server error: " ++ error.message ++ " (" ++ reason ++ ")"
  | .timedOut limit => "No response within " ++ limit.text
  | .idChanged text expected got =>
    "Statement " ++ text ++ " got id " ++ got.listed ++ " when prepared again, instead of " ++
      expected.listed
  | .unexpected kind => "Expected a RESULT or ERROR response, got " ++ kind.name

/-- Whether another node may well not fail this way. -/
def mayDifferElsewhere : AttemptError → Bool
  | .idChanged .. | .unexpected _ => false
  | .poolBroken _ | .writeFailed _ | .connectionBroken _ | .timedOut _ => true
  | .refused error _ => error.mayDifferElsewhere

/-- Whether no connection was to be had. -/
def isPoolBroken : AttemptError → Bool
  | .poolBroken _ => true
  | _ => false

end AttemptError

/-- The result a response carries, or why it carries none. -/
def Response.answer (r : Response) : Except AttemptError Answer :=
  match r.body with
  | .result body => .ok ⟨body, r.extras⟩
  | .error error reason => .error (.refused error reason)
  | body => .error (.unexpected body.kind)

end ClusterClient
