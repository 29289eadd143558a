import BoundQuery.Proofs.Dialect.Filter
import BoundQuery.Statement
import Mathlib.Data.List.Basic

/-!
# Layout of statements

What a built-in dialect makes of a query, read straight off the query: the error or the text and
the data, and the notices. The text is laid out with its slots left open. Which parts a statement
has is decided by the query alone, never by what is written into a slot.
-/

set_option autoImplicit false

namespace BoundQuery

namespace Piece

/-- The parts of a text that may be empty, and then leaves no trace. -/
def visible (text : String) : List String :=
  if text = "" then [] else [text]

/-- The pieces write these parts, all of them with text, and bind these data. -/
structure Lays (pieces : List Piece) (parts : List String) (data : List Datum) : Prop where
  texts : ((leavesOf pieces).map Fragment.text).filter (fun text => decide (text ≠ "")) = parts
  binds : (leavesOf pieces).flatMap Fragment.binds = data

variable {pieces morePieces : List Piece} {parts moreParts : List String}
  {data moreData : List Datum}

theorem Lays.nil : Lays [] [] [] := ⟨rfl, rfl⟩

theorem Lays.append (first : Lays pieces parts data) (second : Lays morePieces moreParts moreData) :
    Lays (pieces ++ morePieces) (parts ++ moreParts) (data ++ moreData) := by
  constructor
  · rw [leavesOf_append, List.map_append, List.filter_append, first.texts, second.texts]
  · rw [leavesOf_append, List.flatMap_append, first.binds, second.binds]

theorem Lays.fragment {part : Fragment} (written : part.text ≠ "") :
    Lays [.fragment part] [part.text] part.binds := by
  constructor <;> simp [written]

theorem Lays.text {text : String} (written : text ≠ "") : Lays [.text text] [text] [] := by
  constructor <;> simp [written]

theorem Lays.visible (text : String) : Lays [.fragment (.ofText text)] (visible text) [] := by
  unfold Piece.visible
  split <;> constructor <;> simp [*]

theorem Lays.ofPieces (laid : Lays pieces parts data) :
    Fragment.ofPieces " " pieces = ⟨" ".intercalate parts, data⟩ := by
  rw [Fragment.ofPieces_eq_joinAll, Fragment.joinAll_eq, laid.texts, laid.binds]

end Piece

namespace Style

/-- The terms of an insertion that leave a slot. -/
def writtenValues (values : List Term) : List Term :=
  values.filter fun term => !term.isBlankRaw

/-- The notices for the terms that leave no slot, the first term having the given index. -/
def skippedSlots (index : Nat) (values : List Term) : List Notice :=
  ((values.zipIdx index).filter fun value => value.1.isBlankRaw).map fun value =>
    .slotSkipped value.2

theorem value_slotsFrom (index : Nat) (values : List Term) :
    (slotsFrom index values).value = (writtenValues values).map Term.fragment := by
  induction values generalizing index with
  | nil => rfl
  | cons term rest ih =>
    cases blank : term.isBlankRaw with
    | true => simp [slotsFrom_cons_of_isBlankRaw blank, writtenValues, blank, ih]
    | false => simp [slotsFrom_cons_of_not_isBlankRaw blank, writtenValues, blank, ih]

theorem log_slotsFrom (index : Nat) (values : List Term) :
    (slotsFrom index values).log = skippedSlots index values := by
  induction values generalizing index with
  | nil => rfl
  | cons term rest ih =>
    cases blank : term.isBlankRaw with
    | true => simp [slotsFrom_cons_of_isBlankRaw blank, skippedSlots, blank, ih]
    | false => simp [slotsFrom_cons_of_not_isBlankRaw blank, skippedSlots, blank, ih]

/-- The data of an insertion are those of all its values: a skipped one has none. -/
theorem binds_writtenValues (values : List Term) :
    (writtenValues values).filterMap Term.bound? = values.filterMap Term.bound? := by
  rw [writtenValues, List.filterMap_filter]
  congr 1
  funext term
  cases blank : term.isBlankRaw with
  | false => rfl
  | true =>
    have noDatum := Term.bound?_eq_none_iff.mpr (Term.isRaw_of_isBlankRaw blank)
    simp [noDatum]

theorem slotText_ne_empty_of_mem_writtenValues {values : List Term} {term : Term}
    (written : term ∈ writtenValues values) : term.slotText ≠ "" := by
  have notBlank := (List.mem_filter.mp written).2
  exact Term.slotText_ne_empty (by simpa using notBlank)

theorem value_listValues (values : List Term) :
    (listValues values).value =
      ⟨listSeparator.intercalate ((writtenValues values).map Term.slotText),
        values.filterMap Term.bound?⟩ := by
  have written : ∀ text ∈ (writtenValues values).map Term.slotText, text ≠ "" := by
    intro text isSlot
    obtain ⟨term, isWritten, rfl⟩ := List.mem_map.mp isSlot
    exact slotText_ne_empty_of_mem_writtenValues isWritten
  have slots : (slotsFrom 0 values).value = (writtenValues values).map Term.fragment :=
    value_slotsFrom 0 values
  have texts : ((writtenValues values).map Term.fragment).map Fragment.text =
      (writtenValues values).map Term.slotText := by
    simp [Term.fragment]
  have binds : ((writtenValues values).map Term.fragment).flatMap Fragment.binds =
      values.filterMap Term.bound? := by
    rw [← binds_writtenValues, List.flatMap_map, List.filterMap_eq_flatMap_toList]
    rfl
  simp only [listValues, Logged.value_bind, Logged.value_pure]
  rw [slots, Fragment.ofPieces_eq_joinAll, Piece.leavesOf_map_fragment, Fragment.joinAll_eq, texts,
    binds, List.filter_eq_self.mpr (by simpa using written)]

theorem log_listValues (values : List Term) :
    (listValues values).log = skippedSlots 0 values := by
  simp only [listValues, Logged.log_bind, Logged.log_pure, List.append_nil]
  exact log_slotsFrom 0 values

end Style

namespace Query

def filterTerms (query : Query) : List Term :=
  query.filter.elim [] Condition.terms

def filterFaults (query : Query) : List ConditionFault :=
  query.filter.elim [] Condition.faults

def terms (query : Query) : List Term :=
  match query.operation with
  | none => []
  | some .insert => query.values
  | some _ => query.filterTerms

def data (query : Query) : List Datum :=
  query.terms.filterMap Term.bound?

def hasTable (query : Query) : Bool :=
  query.table.getD "" != ""

theorem table_eq_some_getD {query : Query} (named : query.hasTable = true) :
    query.table = some (query.table.getD "") := by
  cases table : query.table with
  | none => simp [hasTable, table] at named
  | some name => rfl

/-- Why no statement can be written for a query. A missing table hides the faults of the filter,
and the filter of an insertion is not looked at. -/
def error? (query : Query) : Option StatementError :=
  match query.operation with
  | none => some .noOperation
  | some operation =>
    if !query.hasTable then some (.missingTable operation)
    else
      match operation with
      | .insert => none
      | _ => query.filterFaults.head?.map .invalidCondition

/-- The operation is one of those that write a filter. -/
def WritesFilter (query : Query) : Prop :=
  query.operation = some .select ∨ query.operation = some .delete

theorem operation_of_error?_eq_none {query : Query} (noError : query.error? = none) :
    ∃ operation, query.operation = some operation := by
  cases chosen : query.operation with
  | none => simp [error?, chosen] at noError
  | some operation => exact ⟨operation, rfl⟩

theorem hasTable_of_error?_eq_none {query : Query} (noError : query.error? = none) :
    query.hasTable = true := by
  obtain ⟨operation, chosen⟩ := operation_of_error?_eq_none noError
  cases named : query.hasTable with
  | true => rfl
  | false => simp [error?, chosen, named] at noError

/-- With a table, nothing but the filter can be at fault. -/
theorem error?_of_writesFilter {query : Query} (named : query.hasTable = true)
    (filtered : query.WritesFilter) :
    query.error? = query.filterFaults.head?.map .invalidCondition := by
  rcases filtered with chosen | chosen
  · simp [error?, chosen, named]
  · simp [error?, chosen, named]

theorem filterFaults_of_error?_eq_none {query : Query} (noError : query.error? = none)
    (filtered : query.WritesFilter) : query.filterFaults = [] := by
  rwa [error?_of_writesFilter (hasTable_of_error?_eq_none noError) filtered,
    Option.map_eq_none_iff, List.head?_eq_none_iff] at noError

def notices (dialect : Dialect) (query : Query) : List Notice :=
  match query.operation with
  | none => []
  | some operation =>
    .writing operation dialect.name ::
      if operation = .insert ∧ query.hasTable then Style.skippedSlots 0 query.values else []

def filterParts (dialect : Dialect) (slot : Term → String) (query : Query) : List String :=
  match query.filter with
  | some condition => ["where", condition.spellIn slot dialect]
  | none => []

/-- The slots of an insertion, which are no part of it if there are none. -/
def slotParts (slot : Term → String) (query : Query) : List String :=
  match Style.writtenValues query.values with
  | [] => []
  | written => [Style.listSeparator.intercalate (written.map slot)]

def selectionText (query : Query) : String :=
  if query.columns.isEmpty then "*" else Style.listSeparator.intercalate query.columns

def orderParts (query : Query) : List String :=
  if query.order.isEmpty then [] else ["order by " ++ Style.listSeparator.intercalate query.order]

def limitParts (query : Query) : List String :=
  query.limit.toList.map fun limit => "limit " ++ limit.text

def offsetParts (query : Query) : List String :=
  query.offset.toList.map fun count => "offset " ++ toString count.toNat

def parts (dialect : Dialect) (slot : Term → String) (query : Query) : Operation → List String
  | .select =>
    ["select"] ++ Piece.visible query.selectionText ++ ["from", query.table.getD ""] ++
      query.filterParts dialect slot ++ query.orderParts ++ query.limitParts ++ query.offsetParts
  | .insert =>
    ["insert into", query.table.getD "", "("] ++
      Piece.visible (Style.listSeparator.intercalate query.columns) ++ [")", "values", "("] ++
      query.slotParts slot ++ [")"]
  | .delete => ["delete from", query.table.getD ""] ++ query.filterParts dialect slot

/-- The text of a statement for a query: its parts with single spaces between them. -/
def spell (dialect : Dialect) (slot : Term → String) (query : Query) : String :=
  match query.operation with
  | some operation => " ".intercalate (query.parts dialect slot operation)
  | none => ""

def filterPiece (dialect : Dialect) (query : Query) : Option Piece :=
  query.filter.map fun condition =>
    .group [.text "where", .fragment ⟨condition.spellIn Term.slotText dialect, condition.data⟩]

end Query

namespace Dialect

@[simp] theorem style_columns (dialect : Dialect) (columns : List String) :
    dialect.style.columns columns = .ofText (Style.listSeparator.intercalate columns) := by
  cases dialect <;> rfl

@[simp] theorem style_table (dialect : Dialect) (table : String) :
    dialect.style.table table = .ofText table := by
  cases dialect <;> rfl

@[simp] theorem style_values (dialect : Dialect) (values : List Term) :
    dialect.style.values values = Style.listValues values := by
  cases dialect <;> rfl

@[simp] theorem style_order (dialect : Dialect) (columns : List String) :
    dialect.style.order columns =
      if columns.isEmpty then none
      else some (.ofText ("order by " ++ Style.listSeparator.intercalate columns)) := by
  cases dialect <;> rfl

@[simp] theorem style_offset (dialect : Dialect) (offset : Option UInt64) :
    dialect.style.offset offset =
      offset.map fun count => .ofText ("offset " ++ toString count.toNat) := by
  cases dialect <;> rfl

theorem tableOf_eq (dialect : Dialect) (operation : Operation) (query : Query) :
    dialect.style.tableOf operation query =
      if query.hasTable then .ok (.ofText (query.table.getD ""))
      else .error (.missingTable operation) := by
  unfold Style.tableOf Query.hasTable
  cases query.table with
  | none => rfl
  | some table => by_cases noName : table = "" <;> simp [noName]

theorem filterOf_eq (dialect : Dialect) (query : Query) :
    dialect.style.filterOf query =
      match query.filterFaults with
      | [] => .ok (query.filterPiece dialect)
      | fault :: _ => .error (.invalidCondition fault) := by
  unfold Style.filterOf Query.filterFaults Query.filterPiece
  cases query.filter with
  | none => rfl
  | some condition =>
    simp only [filter_eq, Option.elim_some, Option.map_some]
    cases condition.faults <;> rfl

theorem lays_filterPiece (dialect : Dialect) {query : Query} (noFault : query.filterFaults = []) :
    Piece.Lays (query.filterPiece dialect).toList (query.filterParts dialect Term.slotText)
      (query.filterTerms.filterMap Term.bound?) := by
  unfold Query.filterPiece Query.filterParts Query.filterTerms
  cases present : query.filter with
  | none => exact .nil
  | some condition =>
    have wellFormed : condition.WellFormed := by
      rw [Query.filterFaults, present] at noFault
      exact noFault
    have written := Condition.spellIn_ne_empty Term.slotText dialect wellFormed
    constructor
    · simp [written]
    · simp [Condition.data]

theorem lays_selection (dialect : Dialect) (query : Query) :
    Piece.Lays [.fragment (dialect.style.selection query.columns)]
      (Piece.visible query.selectionText) [] := by
  have columns : dialect.style.selection query.columns = .ofText query.selectionText := by
    unfold Style.selection Query.selectionText
    split <;> simp
  rw [columns]
  exact .visible query.selectionText

theorem lays_order (dialect : Dialect) (query : Query) :
    Piece.Lays ((dialect.style.order query.order).toList.map .fragment) query.orderParts [] := by
  unfold Query.orderParts
  rw [style_order]
  split
  · exact .nil
  · exact .fragment (by simp [String.append_eq_empty_iff])

theorem lays_limit (query : Query) :
    Piece.Lays (query.limit.toList.map Style.limitPiece) query.limitParts [] := by
  unfold Query.limitParts
  cases query.limit with
  | none => exact .nil
  | some limit => exact .text (by simp [String.append_eq_empty_iff])

theorem lays_offset (dialect : Dialect) (query : Query) :
    Piece.Lays ((dialect.style.offset query.offset).toList.map .fragment) query.offsetParts [] := by
  unfold Query.offsetParts
  rw [style_offset]
  cases query.offset with
  | none => exact .nil
  | some count => exact .fragment (by simp [String.append_eq_empty_iff])

/-- The slots are one piece, and where none is left its text is empty and so is their part. -/
theorem lays_slots (query : Query) :
    Piece.Lays [.fragment (Style.listValues query.values).value]
      (query.slotParts Term.slotText) (query.values.filterMap Term.bound?) := by
  rw [Style.value_listValues, Query.slotParts]
  cases written : Style.writtenValues query.values with
  | nil => constructor <;> simp
  | cons first rest =>
    have isWritten : first ∈ Style.writtenValues query.values := by
      rw [written]
      exact List.mem_cons_self
    have firstText := Style.slotText_ne_empty_of_mem_writtenValues isWritten
    constructor
    · cases rest <;> simp [String.append_eq_empty_iff, firstText]
    · simp

theorem table_ne_empty {query : Query} (named : query.hasTable = true) :
    query.table.getD "" ≠ "" := by
  simpa [Query.hasTable] using named

theorem lays_selectPieces (dialect : Dialect) {query : Query} (named : query.hasTable = true)
    (noFault : query.filterFaults = []) :
    Piece.Lays
      (dialect.style.selectPieces query (.ofText (query.table.getD "")) (query.filterPiece dialect))
      (query.parts dialect Term.slotText .select) (query.filterTerms.filterMap Term.bound?) := by
  have opening : Piece.Lays [.text "select"] ["select"] [] := .text (by decide)
  have table : Piece.Lays [.text "from", .fragment (.ofText (query.table.getD ""))]
      ["from", query.table.getD ""] [] :=
    .append (.text (by decide)) (.fragment (table_ne_empty named))
  have selection := (opening.append (lays_selection dialect query)).append table
  have filtered := selection.append (lays_filterPiece dialect noFault)
  have ordered := filtered.append (lays_order dialect query)
  have laid := (ordered.append (lays_limit query)).append (lays_offset dialect query)
  simpa [Style.selectPieces, Query.parts] using laid

theorem lays_insertPieces (dialect : Dialect) {query : Query} (named : query.hasTable = true) :
    Piece.Lays
      (dialect.style.insertPieces query (.ofText (query.table.getD ""))
        (Style.listValues query.values).value)
      (query.parts dialect Term.slotText .insert) (query.values.filterMap Term.bound?) := by
  have table : Piece.Lays
      [.text "insert into", .fragment (.ofText (query.table.getD "")), .text "("]
      ["insert into", query.table.getD "", "("] [] :=
    .append (.text (by decide)) (.append (.fragment (table_ne_empty named)) (.text (by decide)))
  have columns : Piece.Lays [.fragment (dialect.style.columns query.columns)]
      (Piece.visible (Style.listSeparator.intercalate query.columns)) [] := by
    rw [style_columns]
    exact .visible _
  have between : Piece.Lays [.text ")", .text "values", .text "("] [")", "values", "("] [] :=
    .append (.text (by decide)) (.append (.text (by decide)) (.text (by decide)))
  have closing : Piece.Lays [.text ")"] [")"] [] := .text (by decide)
  have names := (table.append columns).append between
  have laid := (names.append (lays_slots query)).append closing
  simpa [Style.insertPieces, Query.parts] using laid

theorem lays_deletePieces (dialect : Dialect) {query : Query} (named : query.hasTable = true)
    (noFault : query.filterFaults = []) :
    Piece.Lays
      (Style.deletePieces (.ofText (query.table.getD "")) (query.filterPiece dialect))
      (query.parts dialect Term.slotText .delete) (query.filterTerms.filterMap Term.bound?) := by
  have names : Piece.Lays [.text "delete from", .fragment (.ofText (query.table.getD ""))]
      ["delete from", query.table.getD ""] [] :=
    .append (.text (by decide)) (.fragment (table_ne_empty named))
  have laid := names.append (lays_filterPiece dialect noFault)
  simpa [Style.deletePieces, Query.parts] using laid

theorem selectStatement_eq (dialect : Dialect) {query : Query} (named : query.hasTable = true) :
    dialect.style.selectStatement query =
      match query.filterFaults with
      | [] => .ok ⟨" ".intercalate (query.parts dialect Term.slotText .select),
          query.filterTerms.filterMap Term.bound?⟩
      | fault :: _ => .error (.invalidCondition fault) := by
  simp only [Style.selectStatement, tableOf_eq, named, if_true, filterOf_eq]
  cases faults : query.filterFaults with
  | nil => exact congrArg Except.ok (lays_selectPieces dialect named faults).ofPieces
  | cons fault others => rfl

theorem deleteStatement_eq (dialect : Dialect) {query : Query} (named : query.hasTable = true) :
    dialect.style.deleteStatement query =
      match query.filterFaults with
      | [] => .ok ⟨" ".intercalate (query.parts dialect Term.slotText .delete),
          query.filterTerms.filterMap Term.bound?⟩
      | fault :: _ => .error (.invalidCondition fault) := by
  simp only [Style.deleteStatement, tableOf_eq, named, if_true, filterOf_eq]
  cases faults : query.filterFaults with
  | nil => exact congrArg Except.ok (lays_deletePieces dialect named faults).ofPieces
  | cons fault others => rfl

theorem insertStatement_eq (dialect : Dialect) {query : Query} (named : query.hasTable = true) :
    dialect.style.insertStatement query =
      { value := .ok ⟨" ".intercalate (query.parts dialect Term.slotText .insert),
          query.values.filterMap Term.bound?⟩
        log := Style.skippedSlots 0 query.values } := by
  simp only [Style.insertStatement, tableOf_eq, named, if_true, style_values]
  apply Logged.ext
  · exact congrArg Except.ok (lays_insertPieces dialect named).ofPieces
  · simp [Style.log_listValues]

/-- What writing a query gives: the error of the query, or its text and its data. -/
theorem value_write (dialect : Dialect) (query : Query) :
    (dialect.style.write query).value =
      match query.error? with
      | some error => .error error
      | none => .ok ⟨query.spell dialect Term.slotText, query.data⟩ := by
  unfold Style.write Query.error? Query.spell Query.data Query.terms
  cases query.operation with
  | none => rfl
  | some operation =>
    cases named : query.hasTable with
    | false =>
      cases operation <;>
        simp [Style.selectStatement, Style.insertStatement, Style.deleteStatement, tableOf_eq,
          named, bind, Except.bind]
    | true =>
      cases operation with
      | select =>
        simp only [Logged.value_bind, Logged.value_pure, selectStatement_eq dialect named]
        cases query.filterFaults <;> rfl
      | insert =>
        simp only [Logged.value_bind, insertStatement_eq dialect named]
        rfl
      | delete =>
        simp only [Logged.value_bind, Logged.value_pure, deleteStatement_eq dialect named]
        cases query.filterFaults <;> rfl

theorem log_write (dialect : Dialect) (query : Query) :
    (dialect.style.write query).log = query.notices dialect := by
  unfold Style.write Query.notices
  cases query.operation with
  | none => rfl
  | some operation =>
    cases operation with
    | select => simp
    | delete => simp
    | insert =>
      cases named : query.hasTable with
      | false => simp [Style.insertStatement, tableOf_eq, named]
      | true => simp [insertStatement_eq dialect named]

theorem write_eq_ok_iff {dialect : Dialect} {query : Query} {statement : Statement} :
    (dialect.style.write query).value = .ok statement ↔
      query.error? = none ∧ statement = ⟨query.spell dialect Term.slotText, query.data⟩ := by
  rw [value_write]
  cases query.error? with
  | none => simp [eq_comm]
  | some error => simp

theorem write_eq_error_iff {dialect : Dialect} {query : Query} {error : StatementError} :
    (dialect.style.write query).value = .error error ↔ query.error? = some error := by
  rw [value_write]
  cases query.error? with
  | none => simp
  | some found => simp

end Dialect

end BoundQuery
