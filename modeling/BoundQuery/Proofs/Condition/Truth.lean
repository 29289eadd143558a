import BoundQuery.Condition
import BoundQuery.Term

/-!
# Truth of conditions

The value of a condition, given the value of each of its comparisons. Comparisons are numbered by
their place from left to right, so two that are written alike may still differ in value.
-/

set_option autoImplicit false

namespace BoundQuery

/-- The value of a row of members: all of them, or at least one. -/
def Connective.holds : Connective → List Bool → Bool
  | .all, values => values.all id
  | .any, values => values.any id

@[simp] theorem Connective.holds_singleton (connective : Connective) (value : Bool) :
    connective.holds [value] = value := by
  cases connective <;> simp [holds]

theorem Connective.holds_cons (connective : Connective) (value : Bool) (values : List Bool) :
    connective.holds (value :: values) = connective.holds [value, connective.holds values] := by
  cases connective <;> simp [holds]

namespace Condition

mutual

def comparisons : Condition → List (Comparator × String × String)
  | .compare comparator column right => [(comparator, column, right.slotText)]
  | .group _ members => comparisonsOf members
  | .negation negated => comparisons negated

def comparisonsOf : List Condition → List (Comparator × String × String)
  | [] => []
  | member :: rest => comparisons member ++ comparisonsOf rest

end

mutual

/-- The value of a condition whose first comparison has the given number. -/
def holds (truth : Nat → Bool) (first : Nat) : Condition → Bool
  | .compare .. => truth first
  | .group connective members => connective.holds (holdsEach truth first members)
  | .negation negated => !holds truth first negated

def holdsEach (truth : Nat → Bool) (first : Nat) : List Condition → List Bool
  | [] => []
  | member :: rest =>
    holds truth first member :: holdsEach truth (first + (comparisons member).length) rest

end

@[simp] theorem comparisons_compare (comparator : Comparator) (column : String) (right : Term) :
    comparisons (.compare comparator column right) = [(comparator, column, right.slotText)] := rfl

@[simp] theorem comparisons_group (connective : Connective) (members : List Condition) :
    comparisons (.group connective members) = comparisonsOf members := rfl

@[simp] theorem comparisons_negation (negated : Condition) :
    comparisons (.negation negated) = comparisons negated := rfl

@[simp] theorem comparisonsOf_nil : comparisonsOf [] = [] := rfl

@[simp] theorem comparisonsOf_cons (member : Condition) (rest : List Condition) :
    comparisonsOf (member :: rest) = comparisons member ++ comparisonsOf rest := rfl

variable (truth : Nat → Bool) (first : Nat)

@[simp] theorem holds_compare (comparator : Comparator) (column : String) (right : Term) :
    holds truth first (.compare comparator column right) = truth first := rfl

@[simp] theorem holds_group (connective : Connective) (members : List Condition) :
    holds truth first (.group connective members) =
      connective.holds (holdsEach truth first members) := rfl

@[simp] theorem holds_negation (negated : Condition) :
    holds truth first (.negation negated) = !holds truth first negated := rfl

@[simp] theorem holdsEach_nil : holdsEach truth first [] = [] := rfl

@[simp] theorem holdsEach_cons (member : Condition) (rest : List Condition) :
    holdsEach truth first (member :: rest) =
      holds truth first member ::
        holdsEach truth (first + (comparisons member).length) rest := rfl

end Condition

end BoundQuery
