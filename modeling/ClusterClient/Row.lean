import ClusterClient.Value

/-!
# Rows

A `Row` has column names and cells. A column is looked up by name at its first place; a column that
the row does not have, one whose cell is missing and one whose cell is null all read as nothing, and
so does a cell of another type than the one asked for. `sortedTexts` gives a set of texts its one
sorted list without repetitions.
-/

namespace ClusterClient

/-- Puts a text into a sorted list of texts, unless it is there. -/
def insertText (s : String) : List String → List String
  | [] => [s]
  | t :: ts =>
    if s < t then s :: t :: ts
    else if s = t then t :: ts
    else t :: insertText s ts

/-- The texts of a list, sorted and each once. -/
def sortedTexts (ss : List String) : List String :=
  ss.foldr insertText []

/-- One row of a result. -/
structure Row where
  columns : List String
  cells : List (Option Value)
  deriving BEq, Repr, Inhabited

namespace Row

/-- The value of a column, nothing if the column is absent or null. -/
def get? (r : Row) (column : String) : Option Value :=
  ((r.columns.idxOf? column).bind fun i => r.cells[i]?).join

/-- The host in a column of addresses. -/
def host? (r : Row) (column : String) : Option Host :=
  (r.get? column).bind Value.host?

/-- The text in a column of texts. -/
def text? (r : Row) (column : String) : Option String :=
  (r.get? column).bind Value.text?

/-- The texts of a set column, sorted; elements that are no texts are left out. -/
def textSet? (r : Row) (column : String) : Option (List String) :=
  ((r.get? column).bind Value.set?).map fun vs => sortedTexts (vs.filterMap Value.text?)

end Row

/-- The rows of a response, with their shared column names and the state to fetch the next page
with, if there is one. -/
structure Rows where
  columns : List String
  rows : List Row
  pagingState : Option Bytes
  deriving BEq, Repr, Inhabited

/-- Rows of the given cells under one list of column names. -/
def Rows.ofCells (columns : List String) (cells : List (List (Option Value)))
    (pagingState : Option Bytes) : Rows :=
  ⟨columns, cells.map (Row.mk columns), pagingState⟩

end ClusterClient
