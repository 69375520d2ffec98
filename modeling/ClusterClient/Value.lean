import ClusterClient.Address
import ClusterClient.Text.Bytes

/-!
# Values

A `Value` is a cell of a row or a value bound to a marker of a statement. The views
(`Value.text?`, `Value.host?` and so on) read a value as one type and give nothing for a value of
another type.
-/

namespace ClusterClient

/-- A universally unique identifier, in its canonical text. -/
structure Uuid where
  text : String
  deriving DecidableEq, Repr, Inhabited

/-- A value of a column or of a bound marker. -/
inductive Value where
  | ascii (text : String)
  | boolean (truth : Bool)
  | blob (bytes : Bytes)
  | int (number : Int32)
  | bigInt (number : Int64)
  | text (text : String)
  | inet (host : Host)
  | uuid (id : Uuid)
  | list (items : List Value)
  | set (items : List Value)
  deriving BEq, Repr, Inhabited

namespace Value

/-- The text of a textual value. -/
def text? : Value → Option String
  | .ascii s | .text s => some s
  | _ => none

/-- The host of an address value. -/
def host? : Value → Option Host
  | .inet h => some h
  | _ => none

/-- The identifier of an identifier value. -/
def uuid? : Value → Option Uuid
  | .uuid u => some u
  | _ => none

/-- The elements of a set, in the order they came. -/
def set? : Value → Option (List Value)
  | .set vs => some vs
  | _ => none

/-- The elements of a list. -/
def list? : Value → Option (List Value)
  | .list vs => some vs
  | _ => none

end Value

end ClusterClient
