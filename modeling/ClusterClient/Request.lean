import ClusterClient.Consistency
import ClusterClient.PageSize
import ClusterClient.Value

/-!
# Requests

What a client sends over a connection: a statement's text (`Request.query`), a text to prepare
(`Request.prepare`) or the identifier of a prepared statement (`Request.execute`). A query and an
execution carry `Parameters`; a preparation carries its text alone.

A `Call` is what one execution asks for, before the consistency of an attempt is known
(`Call.request`).
-/

namespace ClusterClient

/-- Values bound to the markers of a statement. -/
inductive BoundValues where
  | positional (values : List Value)
  | named (values : List (String × Value))
  deriving BEq, Repr, Inhabited

/-- No values. -/
def BoundValues.none : BoundValues := .positional []

/-- Whether there are no values. -/
def BoundValues.isEmpty : BoundValues → Bool
  | .positional vs => vs.isEmpty
  | .named vs => vs.isEmpty

/-- What a query and an execution of a prepared statement send beside the statement. -/
structure Parameters where
  consistency : Consistency
  values : BoundValues
  pageSize : PageSize
  pagingState : Option Bytes

/-- Parameters of a request that sets none. -/
def Parameters.standard : Parameters := ⟨default, .none, .unpaged, none⟩

/-- A request as it goes over a connection. -/
inductive Request where
  | query (text : String) (parameters : Parameters)
  | prepare (text : String)
  | execute (id : Bytes) (parameters : Parameters)

/-- What one execution sends to every node it tries. An execution of a prepared statement also
holds the text, to prepare it again where its identifier is not known. -/
inductive Call where
  | query (text : String) (values : BoundValues) (pageSize : PageSize) (pagingState : Option Bytes)
  | execute (id : Bytes) (text : String) (values : BoundValues) (pageSize : PageSize)
      (pagingState : Option Bytes)
  | prepare (text : String)

/-- The text of a call. -/
def Call.text : Call → String
  | .query text .. | .execute _ text .. | .prepare text => text

/-- The identifier a call executes, if it executes a prepared statement. -/
def Call.preparedId? : Call → Option Bytes
  | .execute id .. => some id
  | _ => Option.none

/-- The request of a call at a consistency. -/
def Call.request (c : Call) (consistency : Consistency) : Request :=
  match c with
  | .query text values pageSize pagingState =>
    .query text ⟨consistency, values, pageSize, pagingState⟩
  | .execute id _ values pageSize pagingState =>
    .execute id ⟨consistency, values, pageSize, pagingState⟩
  | .prepare text => .prepare text

end ClusterClient
