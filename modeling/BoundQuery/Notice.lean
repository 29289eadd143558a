import BoundQuery.Operation

/-!
# Notices

What the library reports beside its results, and values that come with such a report. A notice
never changes a result; it only says that something was ignored, skipped or begun.
-/

set_option autoImplicit false

namespace BoundQuery

inductive Notice where
  | unknownDialect (name : String)
  | writing (operation : Operation) (style : String)
  | negationIgnored
  | slotSkipped (index : Nat)
  deriving DecidableEq

namespace Notice

inductive Level where
  | debug
  | warn
  deriving DecidableEq

def Level.name : Level → String
  | .debug => "DEBUG"
  | .warn => "WARN"

/-- Only a skipped slot is a warning: data were lost. -/
def level : Notice → Level
  | .slotSkipped _ => .warn
  | _ => .debug

def message : Notice → String
  | .unknownDialect _ => "unknown dialect name, falling back to default"
  | .writing .. => "preparing statement"
  | .negationIgnored => "not() called without a where clause, ignored"
  | .slotSkipped _ => "skipping malformed insert value: blank raw marker"

def fields : Notice → List (String × String)
  | .unknownDialect name => [("dialect", name)]
  | .writing operation style => [("operation", operation.word), ("dialect", style)]
  | .negationIgnored => []
  | .slotSkipped index => [("slot", toString index)]

end Notice

/-- A value and the notices given while it was computed, oldest first. -/
structure Logged (α : Type) where
  value : α
  log : List Notice := []

namespace Logged

instance : Monad Logged where
  pure value := { value }
  bind first next :=
    let second := next first.value
    { value := second.value, log := first.log ++ second.log }

instance : LawfulMonad Logged := LawfulMonad.mk' Logged
  (by
    intro α first
    exact congrArg (Logged.mk first.value) (List.append_nil first.log))
  (by
    intro α β value next
    rfl)
  (by
    intro α β γ first next last
    exact congrArg (Logged.mk _) (List.append_assoc _ _ _))

def note (notice : Notice) : Logged Unit := { value := (), log := [notice] }

variable {α β : Type}

@[ext] theorem ext {left right : Logged α} (value : left.value = right.value)
    (log : left.log = right.log) : left = right := by
  cases left
  cases right
  simp_all

@[simp] theorem value_pure (value : α) : (pure value : Logged α).value = value := rfl

@[simp] theorem log_pure (value : α) : (pure value : Logged α).log = [] := rfl

@[simp] theorem value_bind (first : Logged α) (next : α → Logged β) :
    (first >>= next).value = (next first.value).value := rfl

@[simp] theorem log_bind (first : Logged α) (next : α → Logged β) :
    (first >>= next).log = first.log ++ (next first.value).log := rfl

@[simp] theorem value_map (change : α → β) (first : Logged α) :
    (change <$> first).value = change first.value := rfl

@[simp] theorem log_map (change : α → β) (first : Logged α) :
    (change <$> first).log = first.log := List.append_nil _

@[simp] theorem log_note (notice : Notice) : (note notice).log = [notice] := rfl

end Logged

end BoundQuery
