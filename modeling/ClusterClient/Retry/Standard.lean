import ClusterClient.Retry.Basic

/-!
# The standard retry policy

The standard policy retries where another try has a real chance and cannot apply a write twice.
`classify` names the failures that may be retried at all; a `Budget` holds the three retries a
session grants only once, and `Budget.decide` gives the decision on one report together with what
is left. A report with a serial consistency is never retried and spends nothing.

`RetryRule` collects the policies: the standard one, the one that never retries, and any other.
-/

namespace ClusterClient

/-- The kinds of failures that may be retried. -/
inductive Retryable where
  /-- The node could not take the request; any other node may. -/
  | nodeUnusable
  /-- The node may have applied the request before it failed. -/
  | nodeFailed
  | unavailable
  | readTimeout
  | writeTimeout
  deriving DecidableEq, Repr

/-- The kind of a failure, if it is one that may be retried. A read that timed out is one only if
enough replicas answered without data, a write that timed out only if it was the log of a batch
that may be applied again. -/
def classify (error : AttemptError) (idempotent : Bool) : Option Retryable :=
  match error with
  | .writeFailed _ => some .nodeUnusable
  | .connectionBroken _ | .timedOut _ => some .nodeFailed
  | .refused .isBootstrapping _ => some .nodeUnusable
  | .refused .overloaded _ | .refused .serverError _ | .refused .truncateError _ =>
    some .nodeFailed
  | .refused (.unavailable ..) _ => some .unavailable
  | .refused (.readTimeout _ received required dataPresent) _ =>
    if required ≤ received ∧ dataPresent = false then some .readTimeout else none
  | .refused (.writeTimeout _ _ _ writeType) _ =>
    if writeType = .batchLog ∧ idempotent = true then some .writeTimeout else none
  | _ => none

/-- Which of the retries granted once a session has spent. -/
structure Budget where
  unavailable : Bool
  readTimeout : Bool
  writeTimeout : Bool
  deriving DecidableEq, Repr

namespace Budget

/-- Nothing spent. -/
def full : Budget := ⟨false, false, false⟩

/-- The decision on a retryable failure, and what is left after it. -/
def spend (b : Budget) (r : Report) : Retryable → Decision × Budget
  | .nodeUnusable => (.nextNode none, b)
  | .nodeFailed => (if r.idempotent || !r.written then .nextNode none else .stop, b)
  | .unavailable =>
    (if b.unavailable then .stop else .nextNode none, { b with unavailable := true })
  | .readTimeout =>
    (if b.readTimeout then .stop else .sameNode none, { b with readTimeout := true })
  | .writeTimeout =>
    (if b.writeTimeout then .stop else .sameNode none, { b with writeTimeout := true })

/-- The decision on a report, and what is left after it. -/
def decide (b : Budget) (r : Report) : Decision × Budget :=
  if r.consistency.isSerial then (.stop, b)
  else
    match classify r.error r.idempotent with
    | none => (.stop, b)
    | some kind => b.spend r kind

/-- What is left of a full budget after some reports. -/
def after (reports : List Report) : Budget :=
  reports.foldl (fun b r => (b.decide r).2) full

end Budget

/-- A retry policy of another kind: its name, by which it is told from others, and how the sessions
it makes decide. -/
structure RetryLogic where
  name : String
  decide : Lore → List Report → Report → Decision

/-- How a retry policy decides. -/
inductive RetryRule where
  | standard
  | never
  | custom (logic : RetryLogic)

namespace RetryRule

/-- A policy whose sessions take one of some prepared decisions for each report. -/
def scripted (decisions : List Decision) : RetryRule :=
  .custom ⟨"Scripted", fun _ => Decision.scripted decisions⟩

/-- The name of a retry policy. -/
def name : RetryRule → String
  | .standard => "DefaultRetryPolicy"
  | .never => "FallthroughRetryPolicy"
  | .custom logic => logic.name

/-- The decision of a session on a report, after the earlier ones it got. -/
def decide : RetryRule → Lore → List Report → Report → Decision
  | .standard, _, earlier, r => ((Budget.after earlier).decide r).1
  | .never, _, _, _ => .stop
  | .custom logic, lore, earlier, r => logic.decide lore earlier r

end RetryRule

/-- A retry policy; an observed one has its calls reported. -/
structure RetryPolicy where
  rule : RetryRule
  observed : Bool

/-- A conversation with a retry policy: the rule and the reports so far. -/
structure RetrySession where
  rule : RetryRule
  told : List Report

namespace RetrySession

/-- A session that was told nothing yet. -/
def fresh (rule : RetryRule) : RetrySession := ⟨rule, []⟩

/-- The session after a report. -/
def heard (s : RetrySession) (r : Report) : RetrySession :=
  { s with told := s.told ++ [r] }

/-- The decision on a report with what there is to go by, and the session after it. -/
def answer (s : RetrySession) (lore : Lore) (r : Report) : Decision × RetrySession :=
  (s.rule.decide lore s.told r, s.heard r)

/-- The decision of a session that stands alone on a report, and the session after it. -/
def report (s : RetrySession) (r : Report) : Decision × RetrySession :=
  s.answer .nothing r

/-- Forgets every report. -/
def reset (s : RetrySession) : RetrySession := fresh s.rule

end RetrySession

end ClusterClient
