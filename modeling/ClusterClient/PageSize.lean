import ClusterClient.Text.Number

/-!
# Page sizes

A request asks for its rows in pages of a positive size, or for all of them at once. On the wire
`PageSize.unpaged` is `-1`.
-/

namespace ClusterClient

/-- How many rows a response may hold. -/
inductive PageSize where
  | unpaged
  | rows (count : Int32) (positive : 0 < count)
  deriving DecidableEq

namespace PageSize

/-- Pages of the given size, if it is positive. -/
def ofCount? (count : Int32) : Option PageSize :=
  if h : 0 < count then some (.rows count h) else none

/-- Why a number is no page size. -/
def invalidMessage (count : Int32) : String :=
  "Invalid page size: " ++ decimal count ++ ". Page size must be positive"

/-- The number sent on the wire. -/
def onWire : PageSize → Int32
  | .unpaged => -1
  | .rows count _ => count

/-- Whether everything comes in one response. -/
def isUnpaged : PageSize → Bool
  | .unpaged => true
  | .rows _ _ => false

/-- The page size of a statement that sets none. -/
def standard : PageSize := .rows 5000 (by decide)

end PageSize

end ClusterClient
