/-!
# Consistency levels

The consistency a request asks for, with its name and its code on the wire. The two serial levels
are those of lightweight transactions; they are never retried by the standard retry policy.
-/

namespace ClusterClient

/-- How many replicas have to answer a request. -/
inductive Consistency where
  | any | one | two | three | quorum | all | localQuorum | eachQuorum | localOne | serial
  | localSerial
  deriving DecidableEq, Repr

namespace Consistency

/-- The level used where nothing else is said. -/
instance : Inhabited Consistency := ⟨.localQuorum⟩

/-- Every level. -/
def levels : List Consistency :=
  [.any, .one, .two, .three, .quorum, .all, .localQuorum, .eachQuorum, .localOne, .serial,
    .localSerial]

/-- Whether the level is one of the two serial ones. -/
def isSerial : Consistency → Bool
  | .serial | .localSerial => true
  | _ => false

/-- The name of a level. -/
def name : Consistency → String
  | .any => "ANY"
  | .one => "ONE"
  | .two => "TWO"
  | .three => "THREE"
  | .quorum => "QUORUM"
  | .all => "ALL"
  | .localQuorum => "LOCAL_QUORUM"
  | .eachQuorum => "EACH_QUORUM"
  | .localOne => "LOCAL_ONE"
  | .serial => "SERIAL"
  | .localSerial => "LOCAL_SERIAL"

instance : ToString Consistency := ⟨name⟩

/-- The level of a name. -/
def ofName? (s : String) : Option Consistency :=
  levels.find? (·.name = s)

/-- The number a level has on the wire. -/
def code : Consistency → UInt16
  | .any => 0
  | .one => 1
  | .two => 2
  | .three => 3
  | .quorum => 4
  | .all => 5
  | .localQuorum => 6
  | .eachQuorum => 7
  | .serial => 8
  | .localSerial => 9
  | .localOne => 10

end Consistency

end ClusterClient
