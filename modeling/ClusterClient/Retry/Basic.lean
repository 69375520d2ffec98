import ClusterClient.AttemptError

/-!
# Retry policies

After a failed attempt an execution asks its retry session what to do. A `Report` tells the session
what happened, a `Decision` is its answer. A session may use whatever it was told before. A policy
may also make different sessions, and have them share what they know. So a rule (`RetryRule.decide`)
maps the `Lore` of the session, the earlier reports it got, oldest first, and the new one to a
decision; the lore says which session it is and what all sessions of the client were told. As every
question is kept there, no two come with the same lore, and a rule can give the decisions of any
policy.

`RetryRule.standard` is defined through a `Budget` of single-use retries, see
`ClusterClient.Retry.Standard`.
-/

namespace ClusterClient

/-- What a retry session is told about a failed attempt. -/
structure Report where
  error : AttemptError
  /-- Whether the statement may be applied more than once. -/
  idempotent : Bool
  /-- The consistency the attempt was sent with. -/
  consistency : Consistency
  /-- Whether a request that may have been applied got onto the connection. -/
  written : Bool
  /-- How many retries the session decided on before. -/
  retries : Nat

/-- A retry session: the policy it is of, by its name, the call it was made for, and the fiber. -/
structure RetrySessionId where
  policy : String
  call : Nat
  fiber : Nat
  deriving DecidableEq, Repr

/-- What retry sessions are for: one is made, or told of a failed attempt. -/
inductive Consultation where
  | opened
  | reported (report : Report)

/-- What a retry session can go by beside the reports it got. -/
structure Lore where
  self : RetrySessionId
  /-- What was asked of the retry policies of the client so far, oldest first. -/
  past : List (RetrySessionId × Consultation)

/-- What a session that stands alone can go by. -/
def Lore.nothing : Lore := ⟨⟨"", 0, 0⟩, []⟩

/-- What to do after a failed attempt. A consistency replaces the one used so far. -/
inductive Decision where
  | sameNode (consistency : Option Consistency)
  | nextNode (consistency : Option Consistency)
  | stop
  /-- Take the failed write for a done one. -/
  | ignore
  deriving DecidableEq, Repr

/-- Whether the decision asks for another attempt. -/
def Decision.isRetry : Decision → Bool
  | .sameNode _ | .nextNode _ => true
  | .stop | .ignore => false

/-- The decision a list of prepared decisions has for the next report: one each, then to stop. -/
def Decision.scripted (decisions : List Decision) (earlier : List Report) (_ : Report) : Decision :=
  (decisions[earlier.length]?).getD .stop

end ClusterClient
