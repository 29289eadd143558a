import BoundQuery.Condition
import BoundQuery.Operation

/-!
# Queries

A query is everything that a statement is written from, except the style. All of it may be absent,
so a query can be put together in any order; whether it makes a statement is found out on writing.
-/

set_option autoImplicit false

namespace BoundQuery

inductive Limit where
  | count (rows : UInt64)
  /-- Text written as it is. It binds nothing: a caller who writes a placeholder here appends its
  datum to those of the statement. -/
  | placeholder (text : String)
  deriving DecidableEq

def Limit.text : Limit → String
  | .count rows => toString rows.toNat
  | .placeholder content => content

structure Query where
  operation : Option Operation := none
  table : Option String := none
  columns : List String := []
  values : List Term := []
  filter : Option Condition := none
  limit : Option Limit := none
  offset : Option UInt64 := none
  order : List String := []

namespace Query

def empty : Query := {}

def select (query : Query) (columns : List String) : Query :=
  { query with operation := some .select, columns }

def insert (query : Query) (columns : List String) : Query :=
  { query with operation := some .insert, columns }

/-- Makes a query delete. Its columns stay, although nothing is written from them. -/
def delete (query : Query) : Query :=
  { query with operation := some .delete }

def withTable (query : Query) (table : String) : Query :=
  { query with table := some table }

def withFilter (query : Query) (filter : Condition) : Query :=
  { query with filter := some filter }

def withValues (query : Query) (values : List Term) : Query :=
  { query with values }

def withLimit (query : Query) (limit : Limit) : Query :=
  { query with limit := some limit }

def withOffset (query : Query) (offset : UInt64) : Query :=
  { query with offset := some offset }

def orderBy (query : Query) (columns : List String) : Query :=
  { query with order := query.order ++ columns }

def equals (left right : Query) : Bool :=
  left.operation == right.operation && left.table == right.table &&
    left.columns == right.columns && left.values == right.values &&
    left.filter == right.filter && left.limit == right.limit &&
    left.offset == right.offset && left.order == right.order

instance : BEq Query := ⟨equals⟩

end Query

end BoundQuery
