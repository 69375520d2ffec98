import ClusterClient.Address

/-!
# Address maps

Nodes report the addresses they are reached at from inside their network. An `AddressMap` gives the
addresses a client reaches some of them at; the others are reached where they report.
-/

namespace ClusterClient

/-- Pairs of a reported address and the one to use; a later pair replaces an earlier one. -/
abbrev AddressMap := List (Address × Address)

/-- The address to use for a reported one. -/
def AddressMap.apply (m : AddressMap) (a : Address) : Address :=
  ((m.reverse.find? (·.1 = a)).map (·.2)).getD a

end ClusterClient
