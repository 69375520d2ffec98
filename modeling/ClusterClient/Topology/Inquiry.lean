import ClusterClient.Execution.Attempt

/-!
# Inquiries

An `Inquiry` puts one query to one connection, at consistency `ONE` and with a limit on its time,
without load balancing or retries. It is over once it has a result; what comes later is ignored.
-/

namespace ClusterClient

/-- One query to one connection. -/
structure Inquiry where
  connection : Connection
  request : Request
  /-- The time there is, in milliseconds. -/
  limit : Nat
  /-- When that time is up. -/
  deadline : Nat
  acknowledged : Bool
  result : Option (Except AttemptError (List Row))

namespace Inquiry

/-- An inquiry that is about to write its request. -/
def start (connection : Connection) (text : String) (values : BoundValues) (limit : Nat)
    (pageSize : PageSize) (now : Nat) : Inquiry :=
  ⟨connection, .query text ⟨.one, values, pageSize, none⟩, limit, now + limit, false, none⟩

/-- The rows of a response; a result without rows has none. -/
def rowsOf (r : Response) : Except AttemptError (List Row) :=
  match r.answer with
  | .error e => .error e
  | .ok a =>
    match a.body with
    | .rows rows => .ok rows.rows
    | .void => .ok []
    | _ => .error (.unexpected .result)

/-- Whether a signal can come for the request. -/
def expects (i : Inquiry) : Signal → Bool
  | .acknowledged | .writeFailed _ => i.result.isNone && !i.acknowledged
  | .delivered _ => i.result.isNone && i.acknowledged

/-- Goes on after a signal; one that cannot come is ignored. -/
def react (i : Inquiry) (s : Signal) : Inquiry :=
  if i.expects s then
    match s with
    | .acknowledged => { i with acknowledged := true }
    | .writeFailed cause => { i with result := some (.error (.writeFailed cause)) }
    | .delivered (.error cause) => { i with result := some (.error (.connectionBroken cause)) }
    | .delivered (.ok r) => { i with result := some (rowsOf r) }
  else i

/-- Gives up if there is no result yet. -/
def expire (i : Inquiry) : Inquiry :=
  if i.result.isSome then i else { i with result := some (.error (.timedOut (.ofMillis i.limit))) }

/-- When the inquiry gives up, if it still waits. -/
def due? (i : Inquiry) : Option Nat :=
  if i.result.isSome then none else some i.deadline

end Inquiry

end ClusterClient
