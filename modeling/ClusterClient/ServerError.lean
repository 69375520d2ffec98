import ClusterClient.Consistency
import ClusterClient.Text.Bytes
import ClusterClient.Text.Number

/-!
# Errors a node answers with

A `ServerError` is the cause a node gives for refusing or failing a request, with the details the
wire protocol sends along. It has a message, a code, and a class: `ServerError.mayDifferElsewhere`
holds of the errors another node may well not return.
-/

namespace ClusterClient

/-- The kind of a write, as the node names it. -/
inductive WriteType where
  | simple | batch | unloggedBatch | counter | batchLog | cas | view | cdc
  | other (name : String)
  deriving DecidableEq, Repr

namespace WriteType

/-- The name of a kind of write. -/
def name : WriteType → String
  | .simple => "SIMPLE"
  | .batch => "BATCH"
  | .unloggedBatch => "UNLOGGED_BATCH"
  | .counter => "COUNTER"
  | .batchLog => "BATCH_LOG"
  | .cas => "CAS"
  | .view => "VIEW"
  | .cdc => "CDC"
  | .other name => name

/-- The kinds that have a name of their own. -/
def known : List WriteType :=
  [.simple, .batch, .unloggedBatch, .counter, .batchLog, .cas, .view, .cdc]

/-- The kind of write of a name; an unknown name is kept. -/
def ofName (s : String) : WriteType :=
  (known.find? (·.name = s)).getD (.other s)

end WriteType

/-- Why a node did not do what a request asked for. -/
inductive ServerError where
  | syntaxError
  | invalid
  | alreadyExists (keyspace table : String)
  | badCredentials
  | unauthorized
  | configError
  | unavailable (consistency : Consistency) (required alive : Int32)
  | overloaded
  | isBootstrapping
  | truncateError
  | readTimeout (consistency : Consistency) (received required : Int32) (dataPresent : Bool)
  | writeTimeout (consistency : Consistency) (received required : Int32) (writeType : WriteType)
  | readFailure (consistency : Consistency) (received required failures : Int32)
      (dataPresent : Bool)
  | writeFailure (consistency : Consistency) (received required failures : Int32)
      (writeType : WriteType)
  | unprepared (id : Bytes)
  | serverError
  | protocolError
  | other (code : Int32)
  deriving DecidableEq, Repr

namespace ServerError

/-- How many of the replies a request needs came in. -/
def progress (received required : Int32) : String :=
  decimal received ++ "/" ++ decimal required

/-- The word for a truth value. -/
def truthText (b : Bool) : String :=
  if b then "true" else "false"

/-- The text of an error. -/
def message : ServerError → String
  | .syntaxError => "Syntax error in the statement"
  | .invalid => "Statement is invalid"
  | .alreadyExists keyspace table => keyspace ++ "." ++ table ++ " already exists"
  | .badCredentials => "Bad credentials"
  | .unauthorized => "Not authorized to run the statement"
  | .configError => "Statement conflicts with the server configuration"
  | .unavailable consistency required alive =>
    "Only " ++ decimal alive ++ " replicas alive, " ++ decimal required ++ " required for " ++
      consistency.name
  | .overloaded => "Coordinator is overloaded"
  | .isBootstrapping => "Coordinator is bootstrapping"
  | .truncateError => "Truncate failed"
  | .readTimeout consistency received required dataPresent =>
    "Read timed out at " ++ consistency.name ++ ": " ++ progress received required ++
      " replies, data present: " ++ truthText dataPresent
  | .writeTimeout consistency received required writeType =>
    writeType.name ++ " write timed out at " ++ consistency.name ++ ": " ++
      progress received required ++ " acks"
  | .readFailure consistency received required failures dataPresent =>
    "Read failed at " ++ consistency.name ++ ": " ++ progress received required ++
      " replies, " ++ decimal failures ++ " failures, data present: " ++ truthText dataPresent
  | .writeFailure consistency received required failures writeType =>
    writeType.name ++ " write failed at " ++ consistency.name ++ ": " ++
      progress received required ++ " acks, " ++ decimal failures ++ " failures"
  | .unprepared id => "Statement " ++ id.quoted ++ " is not prepared on the coordinator"
  | .serverError => "Internal server error"
  | .protocolError => "Server rejected the message as a protocol violation"
  | .other code => "Server error with unknown code " ++ paddedHex code

/-- The code of an error on the wire. -/
def code : ServerError → Int32
  | .serverError => 0x0000
  | .protocolError => 0x000A
  | .badCredentials => 0x0100
  | .unavailable .. => 0x1000
  | .overloaded => 0x1001
  | .isBootstrapping => 0x1002
  | .truncateError => 0x1003
  | .writeTimeout .. => 0x1100
  | .readTimeout .. => 0x1200
  | .readFailure .. => 0x1300
  | .writeFailure .. => 0x1500
  | .syntaxError => 0x2000
  | .unauthorized => 0x2100
  | .invalid => 0x2200
  | .configError => 0x2300
  | .alreadyExists .. => 0x2400
  | .unprepared _ => 0x2500
  | .other code => code

/-- Whether another node may well answer the same request without this error. The others blame the
statement or the user, and every node would return them. -/
def mayDifferElsewhere : ServerError → Bool
  | .syntaxError | .invalid | .alreadyExists .. | .unauthorized | .protocolError
  | .badCredentials | .configError => false
  | .unavailable .. | .overloaded | .isBootstrapping | .truncateError | .readTimeout ..
  | .writeTimeout .. | .readFailure .. | .writeFailure .. | .unprepared _ | .serverError
  | .other _ => true

end ServerError

end ClusterClient
