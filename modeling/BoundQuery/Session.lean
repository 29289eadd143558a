import BoundQuery.Draft

/-!
# Sessions

A session holds the dialect that new drafts take, and lets it be replaced for the length of a
scope. Leaving the scope brings back the dialect from before it, whatever was set meanwhile. Only
one scope can be open at a time.
-/

set_option autoImplicit false

namespace BoundQuery

/-- The dialect for new drafts, kept by its number, and the one to bring back while a scope is
open. -/
structure Session where
  code : UInt8 := Dialect.cql.code
  saved : Option Dialect := none
  deriving DecidableEq

namespace Session

def start : Session := {}

def dialect (session : Session) : Dialect :=
  .ofCode session.code

/-- Sets the dialect, and gives the one before. An open scope stays open. -/
def setDialect (session : Session) (dialect : Dialect) : Dialect × Session :=
  (session.dialect, { session with code := dialect.code })

/-- Opens a scope with a dialect of its own, unless one is open. -/
def enter? (session : Session) (dialect : Dialect) : Option Session :=
  if session.saved.isSome then none
  else
    let (before, entered) := session.setDialect dialect
    some { entered with saved := some before }

/-- Closes the open scope, if there is one. -/
def leave (session : Session) : Session :=
  match session.saved with
  | some dialect => { (session.setDialect dialect).2 with saved := none }
  | none => session

def draft (session : Session) : Draft :=
  { dialect := session.dialect }

def select (session : Session) (columns : List String) : Draft :=
  session.draft.withQuery (Query.empty.select columns)

@[simp] theorem dialect_start : start.dialect = .cql :=
  Dialect.ofCode_code .cql

@[simp] theorem dialect_setDialect (session : Session) (dialect : Dialect) :
    (session.setDialect dialect).2.dialect = dialect :=
  Dialect.ofCode_code dialect

theorem leave_of_saved {session : Session} {dialect : Dialect}
    (opened : session.saved = some dialect) :
    session.leave = { code := dialect.code, saved := none } := by
  rw [leave, opened]
  rfl

end Session

end BoundQuery
