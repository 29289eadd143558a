import BoundQuery.Draft
import Mathlib.Data.List.Basic

/-!
# Runs of edits

What a draft is after any number of edits, told part by part. Every edit touches one part of a
draft and looks at no other, so edits of different parts may change places. Of most parts only the
latest edit counts; the order grows, and the filter is folded.
-/

set_option autoImplicit false

namespace BoundQuery

namespace Draft

/-- What an edit can touch. An operation comes with its columns, and a filter is set, combined and
negated as one part. -/
inductive Part where
  | dialect
  | operation
  | table
  | filter
  | values
  | limit
  | offset
  | order
  deriving DecidableEq

namespace Edit

def part : Edit → Part
  | .dialect _ => .dialect
  | .select _ | .insert _ | .delete => .operation
  | .table _ => .table
  | .filter _ | .combine .. | .negate => .filter
  | .values _ => .values
  | .limit _ => .limit
  | .offset _ => .offset
  | .orderBy _ => .order

def dialect? : Edit → Option Dialect
  | .dialect chosen => some chosen
  | _ => none

def operation? : Edit → Option Operation
  | .select _ => some .select
  | .insert _ => some .insert
  | .delete => some .delete
  | _ => none

/-- A deletion brings no columns, not even the empty list of them. -/
def columns? : Edit → Option (List String)
  | .select columns | .insert columns => some columns
  | _ => none

def table? : Edit → Option String
  | .table name => some name
  | _ => none

def values? : Edit → Option (List Term)
  | .values terms => some terms
  | _ => none

def limit? : Edit → Option Limit
  | .limit bound => some bound
  | _ => none

def offset? : Edit → Option UInt64
  | .offset count => some count
  | _ => none

def orderColumns : Edit → List String
  | .orderBy columns => columns
  | _ => []

/-- The filter after an edit, given the one before. -/
def refilter (current : Option Condition) : Edit → Option Condition
  | .filter condition => some condition
  | .combine connective condition =>
    match current with
    | some first => some (.group connective [first, condition])
    | none => some condition
  | .negate => current.map .negation
  | _ => current

/-- What is reported of an edit, given the filter before it. -/
def notices (current : Option Condition) : Edit → List Notice
  | .negate => if current.isNone then [.negationIgnored] else []
  | _ => []

/-- An edit says nothing of a part that is not its own. -/
structure Silent (edit : Edit) : Prop where
  dialect : edit.part ≠ .dialect → edit.dialect? = none
  operation : edit.part ≠ .operation → edit.operation? = none
  columns : edit.part ≠ .operation → edit.columns? = none
  table : edit.part ≠ .table → edit.table? = none
  filter : edit.part ≠ .filter → ∀ current, edit.refilter current = current
  notices : edit.part ≠ .filter → ∀ current, edit.notices current = []
  values : edit.part ≠ .values → edit.values? = none
  limit : edit.part ≠ .limit → edit.limit? = none
  offset : edit.part ≠ .offset → edit.offset? = none
  order : edit.part ≠ .order → edit.orderColumns = []

theorem silent (edit : Edit) : edit.Silent := by
  cases edit <;> constructor <;>
    simp [part, dialect?, operation?, columns?, table?, refilter, notices, values?, limit?, offset?,
      orderColumns]

end Edit

/-- What the last edit that says anything of a part says of it. -/
def latest {α : Type} (read : Edit → Option α) (edits : List Edit) : Option α :=
  (edits.filterMap read).getLast?

def noticesFrom (current : Option Condition) : List Edit → List Notice
  | [] => []
  | edit :: rest => edit.notices current ++ noticesFrom (edit.refilter current) rest

/-- A draft after edits, each of its parts read off the edits by itself. -/
def after (draft : Draft) (edits : List Edit) : Draft where
  dialect := (latest Edit.dialect? edits).getD draft.dialect
  query :=
    { operation := (latest Edit.operation? edits).or draft.query.operation
      table := (latest Edit.table? edits).or draft.query.table
      columns := (latest Edit.columns? edits).getD draft.query.columns
      values := (latest Edit.values? edits).getD draft.query.values
      filter := edits.foldl Edit.refilter draft.query.filter
      limit := (latest Edit.limit? edits).or draft.query.limit
      offset := (latest Edit.offset? edits).or draft.query.offset
      order := draft.query.order ++ edits.flatMap Edit.orderColumns }

section Run

variable {α : Type} (read : Edit → Option α) (draft : Draft) (first second : List Edit)

@[simp] theorem latest_nil : latest read [] = none := rfl

theorem latest_append :
    latest read (first ++ second) = (latest read second).or (latest read first) := by
  rw [latest, List.filterMap_append, List.getLast?_append]
  rfl

private theorem getD_or (later earlier : Option α) (default : α) :
    (later.or earlier).getD default = later.getD (earlier.getD default) := by
  cases later <;> rfl

@[simp] theorem after_nil : draft.after [] = draft := by
  simp [after]

theorem dialect_after (edits : List Edit) :
    (draft.after edits).dialect = (latest Edit.dialect? edits).getD draft.dialect := rfl

/-- Edits act on drafts: those of one list and then those of another are those of both. -/
theorem after_append : draft.after (first ++ second) = (draft.after first).after second := by
  simp only [after, latest_append, getD_or, Option.or_assoc, List.foldl_append,
    List.flatMap_append, List.append_assoc]

/-- One edit does what it says of its own part and leaves the others as they are. -/
theorem value_edit (edit : Edit) : (draft.edit edit).value = draft.after [edit] := by
  obtain ⟨⟨operation, table, columns, values, filter, limit, offset, order⟩, dialect⟩ := draft
  simp only [after, List.flatMap_singleton]
  cases edit with
  | orderBy more => rfl
  | negate | combine _ _ =>
    cases filter <;> simp only [Edit.orderColumns, List.append_nil] <;> rfl
  | _ =>
    simp only [Edit.orderColumns, List.append_nil]
    rfl

theorem log_edit (edit : Edit) : (draft.edit edit).log = edit.notices draft.query.filter := by
  cases edit with
  | negate => cases filter : draft.query.filter <;> simp [Draft.edit, Edit.notices, filter]
  | _ => rfl

/-- What a run makes of a draft can be read off its edits, without running them. -/
theorem value_editAll (edits : List Edit) : (draft.editAll edits).value = draft.after edits := by
  induction edits generalizing draft with
  | nil => rw [editAll_nil, Logged.value_pure, after_nil]
  | cons edit rest ih =>
    rw [editAll_cons, Logged.value_bind, ih, value_edit, ← after_append, List.singleton_append]

theorem log_editAll (edits : List Edit) :
    (draft.editAll edits).log = noticesFrom draft.query.filter edits := by
  induction edits generalizing draft with
  | nil => rfl
  | cons edit rest ih =>
    have filter : (draft.edit edit).value.query.filter = edit.refilter draft.query.filter := by
      rw [value_edit]
      rfl
    rw [editAll_cons, Logged.log_bind, ih, log_edit, filter, noticesFrom]

end Run

/-- A view of a list of edits that only the edits of one part contribute to. -/
def ReadsOnly {α : Type} (part : Part) (view : List Edit → α) : Prop :=
  ∀ edits, view (edits.filter fun edit => edit.part = part) = view edits

namespace ReadsOnly

variable {α : Type} {part : Part}

theorem eq_of_filter_eq {view : List Edit → α} (reads : ReadsOnly part view)
    {first second : List Edit}
    (same : first.filter (fun edit => edit.part = part) =
      second.filter fun edit => edit.part = part) : view first = view second := by
  rw [← reads first, same, reads second]

/-- A fold reads one part only if every edit of another part leaves the state as it is. -/
theorem foldl {step : α → Edit → α}
    (idle : ∀ state edit, edit.part ≠ part → step state edit = state) (start : α) :
    ReadsOnly part fun edits => edits.foldl step start := by
  intro edits
  induction edits generalizing start with
  | nil => rfl
  | cons edit rest ih =>
    by_cases own : edit.part = part
    · simp [own, ih]
    · simp [own, ih, idle start edit own]

theorem flatMap {read : Edit → List α} (silent : ∀ edit, edit.part ≠ part → read edit = []) :
    ReadsOnly part fun edits => edits.flatMap read := by
  intro edits
  induction edits with
  | nil => rfl
  | cons edit rest ih =>
    by_cases own : edit.part = part
    · simp [own, ih]
    · simp [own, ih, silent edit own]

theorem latest {read : Edit → Option α} (silent : ∀ edit, edit.part ≠ part → read edit = none) :
    ReadsOnly part (latest read) := by
  intro edits
  have unread : (fun edit => if decide (edit.part = part) then read edit else none) = read := by
    funext edit
    by_cases own : edit.part = part
    · simp [own]
    · simp [own, silent edit own]
  rw [Draft.latest, List.filterMap_filter, unread]
  rfl

theorem refilter (start : Option Condition) :
    ReadsOnly .filter fun edits => edits.foldl Edit.refilter start :=
  foldl (fun current edit other => edit.silent.filter other current) start

theorem noticesFrom (current : Option Condition) :
    ReadsOnly .filter (noticesFrom current) := by
  intro edits
  induction edits generalizing current with
  | nil => rfl
  | cons edit rest ih =>
    by_cases own : edit.part = .filter
    · simp [own, ih, Draft.noticesFrom]
    · simp [own, ih, Draft.noticesFrom, edit.silent.notices own, edit.silent.filter own]

end ReadsOnly

/-- Runs that agree on the edits of each part agree altogether, in what they report as well. -/
theorem editAll_eq_of_filter_eq (draft : Draft) {first second : List Edit}
    (same : ∀ part, first.filter (fun edit => edit.part = part) =
      second.filter fun edit => edit.part = part) :
    draft.editAll first = draft.editAll second := by
  have dialect := (ReadsOnly.latest fun edit => edit.silent.dialect).eq_of_filter_eq (same _)
  have operation := (ReadsOnly.latest fun edit => edit.silent.operation).eq_of_filter_eq (same _)
  have columns := (ReadsOnly.latest fun edit => edit.silent.columns).eq_of_filter_eq (same _)
  have table := (ReadsOnly.latest fun edit => edit.silent.table).eq_of_filter_eq (same _)
  have values := (ReadsOnly.latest fun edit => edit.silent.values).eq_of_filter_eq (same _)
  have limit := (ReadsOnly.latest fun edit => edit.silent.limit).eq_of_filter_eq (same _)
  have offset := (ReadsOnly.latest fun edit => edit.silent.offset).eq_of_filter_eq (same _)
  have order := (ReadsOnly.flatMap fun edit => edit.silent.order).eq_of_filter_eq (same _)
  have filter := (ReadsOnly.refilter draft.query.filter).eq_of_filter_eq (same _)
  have notices := (ReadsOnly.noticesFrom draft.query.filter).eq_of_filter_eq (same _)
  apply Logged.ext
  · rw [value_editAll, value_editAll, after, after, dialect, operation, columns, table, values,
      limit, offset, order, filter]
  · rw [log_editAll, log_editAll, notices]

end Draft

/-- A run of edits from an empty query leaves in each part what the latest edit of that part put
there, in the order all the columns it was given, and in the filter the fold of its edits.
Therefore edits of different parts can be interleaved in any way. -/
theorem Draft.editAll_by_parts (dialect : Dialect) (edits : List Edit) :
    (Draft.editAll { dialect } edits).value =
      { dialect := (latest Edit.dialect? edits).getD dialect
        query :=
          { operation := latest Edit.operation? edits
            table := latest Edit.table? edits
            columns := (latest Edit.columns? edits).getD []
            values := (latest Edit.values? edits).getD []
            filter := edits.foldl Edit.refilter none
            limit := latest Edit.limit? edits
            offset := latest Edit.offset? edits
            order := edits.flatMap Edit.orderColumns } } ∧
      ∀ others, (∀ part, others.filter (fun edit => edit.part = part) =
          edits.filter fun edit => edit.part = part) →
        Draft.editAll { dialect } others = Draft.editAll { dialect } edits := by
  constructor
  · rw [value_editAll, after]
    simp only [Option.or_none, List.nil_append]
  · intro others same
    exact editAll_eq_of_filter_eq _ same

/-- Edits of all kinds in turn, with a negation that comes too early. -/
def Draft.scattered : List Draft.Edit :=
  [.negate, .select ["a"], .filter (.eq "x" (.bind .null)), .orderBy ["p"], .delete,
    .combine .any (.eq "y" (.raw "z")), .table "t", .orderBy ["q"], .negate, .dialect .standard]

/-- The same edits, those of one part after those of another. -/
def Draft.sorted : List Draft.Edit :=
  [.dialect .standard, .table "t", .orderBy ["p"], .orderBy ["q"], .select ["a"], .delete,
    .negate, .filter (.eq "x" (.bind .null)), .combine .any (.eq "y" (.raw "z")), .negate]

theorem Draft.editAll_by_parts_scattered :
    (∀ part, sorted.filter (fun edit => edit.part = part) =
        scattered.filter fun edit => edit.part = part) ∧
      Draft.editAll { dialect := .cql } sorted = Draft.editAll { dialect := .cql } scattered ∧
      (Draft.editAll { dialect := .cql } scattered).value =
        { dialect := .standard
          query :=
            { operation := some .delete
              table := some "t"
              columns := ["a"]
              filter := some (.negation
                (.group .any [.eq "x" (.bind .null), .eq "y" (.raw "z")]))
              order := ["p", "q"] } } := by
  obtain ⟨outcome, agrees⟩ := Draft.editAll_by_parts .cql scattered
  have same (part : Part) : sorted.filter (fun edit => edit.part = part) =
      scattered.filter fun edit => edit.part = part := by
    cases part <;> rfl
  exact ⟨same, agrees sorted same, outcome⟩

end BoundQuery
