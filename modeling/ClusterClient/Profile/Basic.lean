import ClusterClient.Balancing.Basic
import ClusterClient.Execution.Race
import ClusterClient.Retry.Standard

/-!
# Profiles and handles

A `Profile` groups the settings of executions and never changes. Statements and sessions hold a
handle, which is the number of a `Target`: the profile the handle points at right now, and a label.
Copies of a handle are the same number, so mapping one of them to another profile maps all
(`Targets.map`); handles made separately have different numbers, even if made from one profile
(`Targets.add`).
-/

namespace ClusterClient

/-- Settings of executions. -/
structure Profile where
  /-- The time of each attempt, in milliseconds; without one attempts wait forever. -/
  timeout : Option Nat
  consistency : Consistency
  balancer : BalancerId
  retry : RetryPolicy
  speculation : Option Speculation

/-- The profile that sets nothing, with a load balancer of its own. -/
def Profile.standard (balancer : BalancerId) : Profile :=
  ⟨some 30000, default, balancer, ⟨.standard, false⟩, none⟩

/-- Settings to put into a profile; what is left out keeps its value. -/
structure ProfileChange where
  timeout : Option (Option Nat) := none
  consistency : Option Consistency := none
  balancer : Option BalancerId := none
  retry : Option RetryPolicy := none
  speculation : Option (Option Speculation) := none

/-- A profile with some settings changed. -/
def Profile.change (p : Profile) (c : ProfileChange) : Profile :=
  { timeout := c.timeout.getD p.timeout
    consistency := c.consistency.getD p.consistency
    balancer := c.balancer.getD p.balancer
    retry := c.retry.getD p.retry
    speculation := c.speculation.getD p.speculation }

/-- What a handle points at. -/
structure Target where
  profile : Profile
  label : Option String

/-- The number of a handle's target; copies of a handle share it. -/
abbrev HandleId := Nat

/-- The targets of all handles, in the order the handles were made. -/
abbrev Targets := List Target

namespace Targets

/-- Makes a new handle. -/
def add (ts : Targets) (profile : Profile) (label : Option String) : HandleId × Targets :=
  (ts.length, ts ++ [⟨profile, label⟩])

/-- The target of a handle. -/
def target? (ts : Targets) (h : HandleId) : Option Target :=
  ts[h]?

/-- The profile a handle points at. -/
def profile? (ts : Targets) (h : HandleId) : Option Profile :=
  (ts.target? h).map (·.profile)

/-- The label of a handle. -/
def label? (ts : Targets) (h : HandleId) : Option String :=
  (ts.target? h).bind (·.label)

/-- Points a handle, and every copy of it, at another profile. -/
def map (ts : Targets) (h : HandleId) (profile : Profile) : Targets :=
  ts.modify h fun t => { t with profile := profile }

end Targets

end ClusterClient
