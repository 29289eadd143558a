import BoundQuery.Proofs.Statement.Layout

/-!
# Statements in any style

What a statement is made of when nothing is known of the style. Its parts may be empty, may bind
data where none are expected, may be present where nothing was asked for, and its filter may be
refused. The order of the parts and the spaces between them are the same in every style, and no
datum of any part is lost.
-/

set_option autoImplicit false

namespace BoundQuery

namespace Style

/-- A filter after its word. -/
def filterFragments (filter : Option Fragment) : List Fragment :=
  filter.elim [] fun fragment => [.ofText "where", fragment]

/-- What a statement is put together from, in the order of writing. An insertion asks for its
columns even if there are none. -/
def fragments (style : Style) (query : Query) (table : String) (filter : Option Fragment) :
    Operation → List Fragment
  | .select =>
    [.ofText "select", if query.columns = [] then .ofText "*" else style.columns query.columns,
      .ofText "from", style.table table] ++ filterFragments filter ++
      (style.order query.order).toList ++
      query.limit.toList.map (fun limit => .ofText ("limit " ++ limit.text)) ++
      (style.offset query.offset).toList
  | .insert =>
    [.ofText "insert into", style.table table, .ofText "(", style.columns query.columns,
      .ofText ")", .ofText "values", .ofText "(", (style.values query.values).value, .ofText ")"]
  | .delete => [.ofText "delete from", style.table table] ++ filterFragments filter

/-- What a style makes of the filter of a query. An insertion has none. -/
def filterResult (style : Style) (query : Query) :
    Operation → Except StatementError (Option Fragment)
  | .insert => .ok none
  | _ =>
    match query.filter with
    | none => .ok none
    | some condition => (style.filter condition).map some

def filterGroup (fragment : Fragment) : Piece :=
  .group [.text "where", .fragment fragment]

variable (style : Style) (query : Query) {table : String}

theorem tableOf_of_table (operation : Operation) (named : query.table = some table)
    (tableText : table ≠ "") : style.tableOf operation query = .ok (style.table table) := by
  simp [tableOf, named, tableText]

theorem filterOf_eq_filterResult {operation : Operation} (filtered : operation ≠ .insert) :
    style.filterOf query =
      (style.filterResult query operation).map (Option.map filterGroup) := by
  have result : style.filterResult query operation =
      match query.filter with
      | none => .ok none
      | some condition => (style.filter condition).map some := by
    cases operation with
    | insert => exact absurd rfl filtered
    | select | delete => rfl
  rw [result, filterOf]
  cases query.filter with
  | none => rfl
  | some condition =>
    cases rendered : style.filter condition with
    | error error => simp [rendered, Except.map]
    | ok fragment => simp [rendered, Except.map, filterGroup]

theorem leavesOf_filterGroup (filter : Option Fragment) :
    Piece.leavesOf (filter.map filterGroup).toList = filterFragments filter := by
  cases filter <;> rfl

theorem leavesOf_selectPieces (filter : Option Fragment) :
    Piece.leavesOf (style.selectPieces query (style.table table) (filter.map filterGroup)) =
      style.fragments query table filter .select := by
  have limits : Piece.leavesOf (query.limit.toList.map limitPiece) =
      query.limit.toList.map fun limit => .ofText ("limit " ++ limit.text) := by
    cases query.limit <;> rfl
  have selected : style.selection query.columns =
      if query.columns = [] then .ofText "*" else style.columns query.columns := by
    simp [selection]
  simp only [selectPieces, Piece.leavesOf_append, leavesOf_filterGroup,
    Piece.leavesOf_map_fragment, limits, selected]
  rfl

theorem leavesOf_deletePieces (filter : Option Fragment) :
    Piece.leavesOf (deletePieces (style.table table) (filter.map filterGroup)) =
      style.fragments query table filter .delete := by
  rw [deletePieces, Piece.leavesOf_append, leavesOf_filterGroup]
  rfl

/-- A statement that has a filter is joined from the leaves of its pieces. -/
theorem filteredStatement_of_table {operation : Operation} (filtered : operation ≠ .insert)
    (named : query.table = some table) (tableText : table ≠ "")
    {pieces : Fragment → Option Piece → List Piece}
    (leaves : ∀ filter, Piece.leavesOf (pieces (style.table table) (filter.map filterGroup)) =
      style.fragments query table filter operation) :
    (do
      let table ← style.tableOf operation query
      let filter ← style.filterOf query
      pure (Fragment.ofPieces " " (pieces table filter))) =
      (style.filterResult query operation).map fun filter =>
        .joinAll " " (style.fragments query table filter operation) := by
  rw [style.tableOf_of_table query operation named tableText,
    style.filterOf_eq_filterResult query filtered]
  cases style.filterResult query operation with
  | error error => rfl
  | ok filter =>
    have joined : Fragment.ofPieces " " (pieces (style.table table) (filter.map filterGroup)) =
        .joinAll " " (style.fragments query table filter operation) := by
      rw [Fragment.ofPieces_eq_joinAll, leaves]
    exact congrArg Except.ok joined

theorem selectStatement_of_table (named : query.table = some table) (tableText : table ≠ "") :
    style.selectStatement query = (style.filterResult query .select).map fun filter =>
      .joinAll " " (style.fragments query table filter .select) :=
  style.filteredStatement_of_table query (by decide) named tableText
    (style.leavesOf_selectPieces query)

theorem deleteStatement_of_table (named : query.table = some table) (tableText : table ≠ "") :
    style.deleteStatement query = (style.filterResult query .delete).map fun filter =>
      .joinAll " " (style.fragments query table filter .delete) :=
  style.filteredStatement_of_table query (by decide) named tableText
    (style.leavesOf_deletePieces query)

theorem value_insertStatement_of_table (named : query.table = some table)
    (tableText : table ≠ "") (filter : Option Fragment) :
    (style.insertStatement query).value =
      .ok (.joinAll " " (style.fragments query table filter .insert)) := by
  simp only [insertStatement, style.tableOf_of_table query .insert named tableText,
    Logged.value_bind, Logged.value_pure, Fragment.ofPieces_eq_joinAll]
  rfl

/-- With a table, writing is decided by the filter alone. -/
theorem value_write_of_table {operation : Operation} (chosen : query.operation = some operation)
    (named : query.table = some table) (tableText : table ≠ "") :
    (style.write query).value = (style.filterResult query operation).map fun filter =>
      .joinAll " " (style.fragments query table filter operation) := by
  simp only [write, chosen, Logged.value_bind]
  cases operation with
  | select => exact style.selectStatement_of_table query named tableText
  | insert => exact style.value_insertStatement_of_table query named tableText none
  | delete => exact style.deleteStatement_of_table query named tableText

end Style

/-- In every style a statement fails for want of a table before all else, then with the error of
its filter, and is otherwise the join of its fragments: the texts that are not empty with single
spaces between them, and the data of all fragments, also of those without text. -/
theorem Style.write_joins_fragments (style : Style) {query : Query} {operation : Operation}
    (chosen : query.operation = some operation) :
    (query.table = none ∨ query.table = some "" →
      (style.write query).value = .error (.missingTable operation)) ∧
    ∀ table, query.table = some table → table ≠ "" →
      (∀ error, style.filterResult query operation = .error error →
        (style.write query).value = .error error) ∧
      ∀ filter, style.filterResult query operation = .ok filter →
        (style.write query).value =
          .ok ⟨" ".intercalate (((style.fragments query table filter operation).map
              Fragment.text).filter fun text => decide (text ≠ "")),
            (style.fragments query table filter operation).flatMap Fragment.binds⟩ := by
  constructor
  · intro noTable
    have refused : style.tableOf operation query = .error (.missingTable operation) :=
      tableOf_eq_error_iff.mpr ⟨noTable, rfl⟩
    cases operation <;>
      simp [write, chosen, selectStatement, insertStatement, deleteStatement, refused, bind,
        Except.bind]
  · intro table named tableText
    have written := style.value_write_of_table query chosen named tableText
    constructor
    · intro error refused
      rw [written, refused]
      rfl
    · intro filter rendered
      rw [written, rendered, ← Fragment.joinAll_eq]
      rfl

/-- A style that binds a datum for every part, leaves three parts without text, orders rows
without being asked to, and refuses groups. -/
def Style.eccentric : Style where
  name := "eccentric"
  columns _ := ⟨"", [.int 1]⟩
  table table := ⟨"[" ++ table ++ "]", [.int 2]⟩
  values _ := pure ⟨"", [.int 3]⟩
  filter condition :=
    if condition.isGroup then .error (.unsupportedOperation "group") else .ok ⟨"", [.int 4]⟩
  order _ := some ⟨"sorted", [.int 5]⟩
  offset _ := some ⟨"", [.int 6]⟩

def Query.eccentric (table : String) (filter : Condition) : Query where
  operation := some .select
  table := some table
  columns := ["a"]
  filter := some filter
  limit := some (.placeholder "?")

theorem Style.write_joins_fragments_eccentric :
    (Style.eccentric.write (.eccentric "" (.all []))).value = .error (.missingTable .select) ∧
      (Style.eccentric.write (.eccentric "t" (.all []))).value =
        .error (.unsupportedOperation "group") ∧
      (Style.eccentric.write (.eccentric "t" (.eq "" (.raw "")))).value =
        .ok ⟨"select from [t] where sorted limit ?", [.int 1, .int 2, .int 4, .int 5, .int 6]⟩ := by
  obtain ⟨noTable, -⟩ := Style.write_joins_fragments .eccentric
    (rfl : (Query.eccentric "" (.all [])).operation = some .select)
  obtain ⟨-, tables⟩ := Style.write_joins_fragments .eccentric
    (rfl : (Query.eccentric "t" (.all [])).operation = some .select)
  obtain ⟨-, otherTables⟩ := Style.write_joins_fragments .eccentric
    (rfl : (Query.eccentric "t" (.eq "" (.raw ""))).operation = some .select)
  obtain ⟨refused, -⟩ := tables "t" rfl (by decide)
  obtain ⟨-, written⟩ := otherTables "t" rfl (by decide)
  exact ⟨noTable (.inr rfl), refused _ rfl, written _ rfl⟩

end BoundQuery
