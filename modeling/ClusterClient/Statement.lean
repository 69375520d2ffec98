import ClusterClient.PageSize
import ClusterClient.Profile.Basic
import ClusterClient.Text.Bytes

/-!
# Statements

A `Statement` is sent as text, a `PreparedStatement` by the identifier a node gave it. Both carry a
`StatementConfig`; what it leaves unset is taken from the profile of the statement, or from that of
the session.
-/

namespace ClusterClient

/-- Settings of one statement. -/
structure StatementConfig where
  consistency : Option Consistency
  idempotent : Bool
  /-- The time of each attempt, in milliseconds. -/
  timeout : Option Nat
  handle : Option HandleId
  balancer : Option BalancerId
  retry : Option RetryPolicy

/-- The settings of a statement that sets nothing. -/
def StatementConfig.standard : StatementConfig := ⟨none, false, none, none, none, none⟩

/-- Settings to put into a statement; what is left out keeps its value. -/
structure StatementChange where
  consistency : Option Consistency := none
  idempotent : Option Bool := none
  timeout : Option (Option Nat) := none
  handle : Option (Option HandleId) := none
  balancer : Option (Option BalancerId) := none
  retry : Option (Option RetryPolicy) := none
  pageSize : Option PageSize := none

/-- Settings of a statement with some of them changed. -/
def StatementConfig.change (s : StatementConfig) (c : StatementChange) : StatementConfig :=
  { consistency := c.consistency.or s.consistency
    idempotent := c.idempotent.getD s.idempotent
    timeout := c.timeout.getD s.timeout
    handle := c.handle.getD s.handle
    balancer := c.balancer.getD s.balancer
    retry := c.retry.getD s.retry }

/-- A statement sent as text. -/
structure Statement where
  config : StatementConfig
  text : String
  pageSize : PageSize

namespace Statement

/-- A statement that sets nothing. -/
def ofText (text : String) : Statement := ⟨.standard, text, .standard⟩

/-- A statement with some settings changed. -/
def change (s : Statement) (c : StatementChange) : Statement :=
  { s with config := s.config.change c, pageSize := c.pageSize.getD s.pageSize }

end Statement

/-- A statement a node prepared. -/
structure PreparedStatement where
  config : StatementConfig
  id : Bytes
  text : String
  pageSize : PageSize

/-- A prepared statement with some settings changed. -/
def PreparedStatement.change (s : PreparedStatement) (c : StatementChange) : PreparedStatement :=
  { s with config := s.config.change c, pageSize := c.pageSize.getD s.pageSize }

end ClusterClient
