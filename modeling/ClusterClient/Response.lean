import ClusterClient.Row
import ClusterClient.ServerError

/-!
# Responses

A `Response` is what a node sends back for a request: a result, an error or one of the two answers
of a connection's handshake. `Extras` are what any response may carry beside its body. An `Answer`
is a response that carries a result.
-/

namespace ClusterClient

/-- The kind of a response. -/
inductive ResponseKind where
  | error | ready | result | supported
  deriving DecidableEq, Repr

namespace ResponseKind

/-- The name of a kind of response. -/
def name : ResponseKind → String
  | .error => "ERROR"
  | .ready => "READY"
  | .result => "RESULT"
  | .supported => "SUPPORTED"

/-- The kind of a name. -/
def ofName? (s : String) : Option ResponseKind :=
  [.error, .ready, .result, .supported].find? (·.name = s)

end ResponseKind

/-- The body of a result. -/
inductive ResultBody where
  | void
  | rows (rows : Rows)
  | setKeyspace (keyspace : String)
  | prepared (id : Bytes)

/-- The keyspace a result switches to, if it is the result of such a switch. -/
def ResultBody.keyspace? : ResultBody → Option String
  | .setKeyspace keyspace => some keyspace
  | _ => none

/-- What a response carries beside its body. -/
structure Extras where
  tracing : Option Uuid
  warnings : List String
  payload : Option (List (String × Bytes))

/-- Nothing beside the body. -/
def Extras.none : Extras := ⟨Option.none, [], Option.none⟩

/-- The body of a response. -/
inductive ResponseBody where
  | error (error : ServerError) (reason : String)
  | ready
  | result (body : ResultBody)
  | supported

/-- The kind of a body. -/
def ResponseBody.kind : ResponseBody → ResponseKind
  | .error _ _ => .error
  | .ready => .ready
  | .result _ => .result
  | .supported => .supported

/-- A response of a node. -/
structure Response where
  body : ResponseBody
  extras : Extras

/-- A response that carries a result. -/
structure Answer where
  body : ResultBody
  extras : Extras

/-- The answer that stands for a write whose failure is ignored. -/
def Answer.void : Answer := ⟨.void, .none⟩

end ClusterClient
