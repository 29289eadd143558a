import BoundQuery.Condition

/-!
# Faults of conditions

What keeps a condition from being written, and where in the tree each fault lies. A fault of a
comparison names the comparison; that of a group without members names only its connective.
-/

set_option autoImplicit false

namespace BoundQuery

inductive ConditionFault where
  | emptyGroup (connective : Connective)
  | blankColumn (comparator : Comparator)
  | blankRaw (column : String) (comparator : Comparator)
  /-- A reason of a style's own. -/
  | refused (reason : String)
  deriving DecidableEq

def ConditionFault.describe : ConditionFault → String
  | .emptyGroup connective => "`" ++ connective.word ++ "` without children"
  | .blankColumn comparator => "`" ++ comparator.symbol ++ "` comparison without a column"
  | .blankRaw column comparator =>
    "`" ++ column ++ " " ++ comparator.symbol ++ "` with a blank raw value"
  | .refused reason => reason

namespace Condition

/-- The fault of a comparison by itself. A blank column hides a blank right side. -/
def comparisonFault? (comparator : Comparator) (column : String) (right : Term) :
    Option ConditionFault :=
  if Text.isBlank column then some (.blankColumn comparator)
  else if right.isBlankRaw then some (.blankRaw column comparator)
  else none

mutual

/-- The faults in a condition, in the order in which a reader of the tree meets them. -/
def faults : Condition → List ConditionFault
  | .compare comparator column right => (comparisonFault? comparator column right).toList
  | .group connective [] => [.emptyGroup connective]
  | .group _ (member :: rest) => faults member ++ faultsOf rest
  | .negation negated => faults negated

def faultsOf : List Condition → List ConditionFault
  | [] => []
  | member :: rest => faults member ++ faultsOf rest

end

def WellFormed (condition : Condition) : Prop :=
  condition.faults = []

theorem comparisonFault?_eq_none_iff {comparator : Comparator} {column : String} {right : Term} :
    comparisonFault? comparator column right = none ↔
      Text.isBlank column = false ∧ right.isBlankRaw = false := by
  unfold comparisonFault?
  cases Text.isBlank column <;> cases right.isBlankRaw <;> simp

@[simp] theorem faults_compare (comparator : Comparator) (column : String) (right : Term) :
    faults (.compare comparator column right) =
      (comparisonFault? comparator column right).toList := rfl

@[simp] theorem faults_group_nil (connective : Connective) :
    faults (.group connective []) = [.emptyGroup connective] := rfl

@[simp] theorem faults_group_cons (connective : Connective) (member : Condition)
    (rest : List Condition) :
    faults (.group connective (member :: rest)) = faultsOf (member :: rest) := rfl

@[simp] theorem faults_negation (negated : Condition) :
    faults (.negation negated) = faults negated := rfl

@[simp] theorem faultsOf_nil : faultsOf [] = [] := rfl

@[simp] theorem faultsOf_cons (member : Condition) (rest : List Condition) :
    faultsOf (member :: rest) = faults member ++ faultsOf rest := rfl

theorem faultsOf_eq_flatMap (members : List Condition) :
    faultsOf members = members.flatMap faults := by
  induction members with
  | nil => rfl
  | cons member rest ih => simp [ih]

instance (condition : Condition) : Decidable condition.WellFormed :=
  inferInstanceAs (Decidable (condition.faults = []))

end Condition

end BoundQuery
