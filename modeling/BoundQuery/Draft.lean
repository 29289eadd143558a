import BoundQuery.Dialect
import BoundQuery.Statement

/-!
# Drafts

A draft is a query under construction together with the dialect in which it will be written. It
changes by edits, each of which touches one part of it; an edit never fails.
-/

set_option autoImplicit false

namespace BoundQuery

structure Draft where
  query : Query := {}
  dialect : Dialect

namespace Draft

inductive Edit where
  | dialect (dialect : Dialect)
  | select (columns : List String)
  | insert (columns : List String)
  | delete
  | table (table : String)
  | filter (condition : Condition)
  | combine (connective : Connective) (condition : Condition)
  | negate
  | values (values : List Term)
  | limit (limit : Limit)
  | offset (offset : UInt64)
  | orderBy (columns : List String)

def withQuery (draft : Draft) (query : Query) : Draft :=
  { draft with query }

/-- A draft after an edit. To negate an absent filter changes nothing and is reported. -/
def edit (draft : Draft) : Edit → Logged Draft
  | .dialect dialect => pure { draft with dialect }
  | .select columns => pure (draft.withQuery (draft.query.select columns))
  | .insert columns => pure (draft.withQuery (draft.query.insert columns))
  | .delete => pure (draft.withQuery draft.query.delete)
  | .table table => pure (draft.withQuery (draft.query.withTable table))
  | .filter condition => pure (draft.withQuery (draft.query.withFilter condition))
  | .combine connective condition =>
    pure (draft.withQuery
      (draft.query.withFilter (.combine connective draft.query.filter condition)))
  | .negate =>
    match draft.query.filter with
    | some condition => pure (draft.withQuery (draft.query.withFilter condition.negate))
    | none => do
      Logged.note .negationIgnored
      pure draft
  | .values values => pure (draft.withQuery (draft.query.withValues values))
  | .limit limit => pure (draft.withQuery (draft.query.withLimit limit))
  | .offset offset => pure (draft.withQuery (draft.query.withOffset offset))
  | .orderBy columns => pure (draft.withQuery (draft.query.orderBy columns))

def editAll (draft : Draft) : List Edit → Logged Draft
  | [] => pure draft
  | first :: rest => do
    let edited ← draft.edit first
    edited.editAll rest

def writeIn (draft : Draft) (dialect : Dialect) : Logged (Except StatementError Statement) :=
  dialect.style.write draft.query

def write (draft : Draft) : Logged (Except StatementError Statement) :=
  draft.writeIn draft.dialect

def textIn (draft : Draft) (dialect : Dialect) : Logged (Except StatementError String) :=
  (fun result => result.map Fragment.text) <$> draft.writeIn dialect

def bindsIn (draft : Draft) (dialect : Dialect) :
    Logged (Except StatementError (List Datum)) :=
  (fun result => result.map Fragment.binds) <$> draft.writeIn dialect

def text (draft : Draft) : Logged (Except StatementError String) :=
  draft.textIn draft.dialect

def binds (draft : Draft) : Logged (Except StatementError (List Datum)) :=
  draft.bindsIn draft.dialect

def equals (left right : Draft) : Bool :=
  left.query == right.query && left.dialect == right.dialect

instance : BEq Draft := ⟨equals⟩

@[simp] theorem editAll_nil (draft : Draft) : draft.editAll [] = pure draft := rfl

theorem write_eq (draft : Draft) : draft.write = draft.dialect.style.write draft.query := rfl

theorem editAll_cons (draft : Draft) (first : Edit) (rest : List Edit) :
    draft.editAll (first :: rest) = draft.edit first >>= fun edited => edited.editAll rest := rfl

end Draft

end BoundQuery
