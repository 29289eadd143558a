import BoundQuery.Query
import BoundQuery.Style

/-!
# Statements

Writing a query as a statement in a given style. The words and their order depend on the operation
alone; what stands between them is the style's, and a part that the style leaves empty vanishes
together with its space.
-/

set_option autoImplicit false

namespace BoundQuery

/-- A finished statement: its text, and the data for its placeholders from left to right. -/
abbrev Statement := Fragment

namespace Style

/-- The table of a query, which every operation needs. The empty name is no table. -/
def tableOf (style : Style) (operation : Operation) (query : Query) :
    Except StatementError Fragment :=
  match query.table with
  | some table => if table = "" then .error (.missingTable operation) else .ok (style.table table)
  | none => .error (.missingTable operation)

def filterOf (style : Style) (query : Query) : Except StatementError (Option Piece) :=
  match query.filter with
  | none => .ok none
  | some condition =>
    (style.filter condition).map fun fragment => some (.group [.text "where", .fragment fragment])

/-- The columns to select, where no columns mean all of them. -/
def selection (style : Style) (columns : List String) : Fragment :=
  if columns.isEmpty then .ofText "*" else style.columns columns

def limitPiece (limit : Limit) : Piece :=
  .text ("limit " ++ limit.text)

def selectPieces (style : Style) (query : Query) (table : Fragment) (filter : Option Piece) :
    List Piece :=
  [.text "select", .fragment (style.selection query.columns), .text "from", .fragment table] ++
    filter.toList ++ (style.order query.order).toList.map .fragment ++
    query.limit.toList.map limitPiece ++ (style.offset query.offset).toList.map .fragment

def insertPieces (style : Style) (query : Query) (table values : Fragment) : List Piece :=
  [.text "insert into", .fragment table, .text "(", .fragment (style.columns query.columns),
    .text ")", .text "values", .text "(", .fragment values, .text ")"]

def deletePieces (table : Fragment) (filter : Option Piece) : List Piece :=
  [.text "delete from", .fragment table] ++ filter.toList

def selectStatement (style : Style) (query : Query) : Except StatementError Statement := do
  let table ← style.tableOf .select query
  let filter ← style.filterOf query
  pure (.ofPieces " " (style.selectPieces query table filter))

/-- Writes an insert statement. Without a table the values are not looked at. -/
def insertStatement (style : Style) (query : Query) : Logged (Except StatementError Statement) :=
  match style.tableOf .insert query with
  | .error error => pure (.error error)
  | .ok table => do
    let values ← style.values query.values
    pure (.ok (.ofPieces " " (style.insertPieces query table values)))

/-- Writes a delete statement. Order, limit and offset are no part of it. -/
def deleteStatement (style : Style) (query : Query) : Except StatementError Statement := do
  let table ← style.tableOf .delete query
  let filter ← style.filterOf query
  pure (.ofPieces " " (deletePieces table filter))

/-- Writes the statement of a query. The beginning is reported once the operation is known. -/
def write (style : Style) (query : Query) : Logged (Except StatementError Statement) :=
  match query.operation with
  | none => pure (.error .noOperation)
  | some operation => do
    Logged.note (.writing operation style.name)
    match operation with
    | .select => pure (style.selectStatement query)
    | .insert => style.insertStatement query
    | .delete => pure (style.deleteStatement query)

theorem tableOf_eq_error_iff {style : Style} {operation : Operation} {query : Query}
    {error : StatementError} :
    style.tableOf operation query = .error error ↔
      (query.table = none ∨ query.table = some "") ∧ error = .missingTable operation := by
  unfold tableOf
  cases query.table with
  | none => simp [eq_comm]
  | some table => by_cases blank : table = "" <;> simp [blank, eq_comm]

end Style

end BoundQuery
