import BoundQuery.Style

/-!
# Dialects

The two dialects with a built-in style, and their names. A name is read without the white space
around it and without regard to the case of ASCII letters; every unknown name means the general
dialect and is reported.
-/

set_option autoImplicit false

namespace BoundQuery

inductive Dialect where
  | standard
  | cql
  deriving DecidableEq

namespace Dialect

def name : Dialect → String
  | .standard => "default"
  | .cql => "cql"

/-- The number of a dialect, by which it fits into one byte. -/
def code : Dialect → UInt8
  | .standard => 0
  | .cql => 1

/-- The dialect with a number. Every number but that of the general dialect means CQL. -/
def ofCode (code : UInt8) : Dialect :=
  if code = 0 then .standard else .cql

def style : Dialect → Style
  | .standard => Style.standard
  | .cql => Style.cql

def names : List (String × Dialect) :=
  [("cql", .cql), ("mysql", .standard), ("sql", .standard), ("default", .standard)]

def ofExactName? (name : String) : Option Dialect :=
  names.lookup name

/-- The dialect of a name. The case of letters outside ASCII does count. -/
def ofName (name : String) : Logged Dialect :=
  let trimmed := Text.trim name
  match ofExactName? trimmed.toLower with
  | some dialect => pure dialect
  | none => do
    Logged.note (.unknownDialect trimmed)
    pure .standard

/-- The dialect of a name, where a name is expected that can be refused. None ever is. -/
def parse (name : String) : Logged (Except Empty Dialect) := do
  return .ok (← ofName name)

/-- The dialect of a text that is nothing but a name. -/
def ofText (text : String) : Logged Dialect :=
  ofName text

@[simp] theorem name_style (dialect : Dialect) : dialect.style.name = dialect.name := by
  cases dialect <;> rfl

@[simp] theorem ofCode_code (dialect : Dialect) : ofCode dialect.code = dialect := by
  cases dialect <;> decide

theorem ofExactName?_name (dialect : Dialect) : ofExactName? dialect.name = some dialect := by
  cases dialect <;> decide

end Dialect

/-- The style of the dialect of a name. -/
def Style.ofName (name : String) : Logged Style := do
  return (← Dialect.ofName name).style

end BoundQuery
