import BoundQuery.Term

/-!
# Conditions

The filter of a query: comparisons of a column with a term, groups of conditions under one
connective, and negations. A condition may be malformed, for instance a group without members;
that is found only when it is written.
-/

set_option autoImplicit false

namespace BoundQuery

inductive Comparator where
  | eq
  | ne
  | gt
  | lt
  | ge
  | le
  deriving DecidableEq

namespace Comparator

def symbol : Comparator → String
  | .eq => "="
  | .ne => "!="
  | .gt => ">"
  | .lt => "<"
  | .ge => ">="
  | .le => "<="

theorem symbol_ne_empty (comparator : Comparator) : comparator.symbol ≠ "" := by
  cases comparator <;> decide

theorem symbol_injective {left right : Comparator} (same : left.symbol = right.symbol) :
    left = right := by
  cases left <;> cases right <;> first | rfl | exact absurd same (by decide)

end Comparator

inductive Connective where
  | all
  | any
  deriving DecidableEq

namespace Connective

def word : Connective → String
  | .all => "and"
  | .any => "or"

theorem word_ne_empty (connective : Connective) : connective.word ≠ "" := by
  cases connective <;> decide

theorem word_injective {left right : Connective} (same : left.word = right.word) :
    left = right := by
  cases left <;> cases right <;> first | rfl | exact absurd same (by decide)

end Connective

/-- A filter, as a tree. Groups may have any number of members. -/
inductive Condition where
  | compare (comparator : Comparator) (column : String) (right : Term)
  | group (connective : Connective) (members : List Condition)
  | negation (negated : Condition)

namespace Condition

@[elab_as_elim, induction_eliminator]
theorem induction {motive : Condition → Prop}
    (compare : ∀ comparator column right, motive (.compare comparator column right))
    (group : ∀ connective members, (∀ member ∈ members, motive member) →
      motive (.group connective members))
    (negation : ∀ negated, motive negated → motive (.negation negated))
    (condition : Condition) : motive condition :=
  Condition.rec (motive_1 := motive)
    (motive_2 := fun members => ∀ member ∈ members, motive member)
    compare group negation (fun _ member => nomatch member)
    (fun _ _ headHolds tailHolds => List.forall_mem_cons.mpr ⟨headHolds, tailHolds⟩) condition

def eq (column : String) (right : Term) : Condition := .compare .eq column right

def ne (column : String) (right : Term) : Condition := .compare .ne column right

def gt (column : String) (right : Term) : Condition := .compare .gt column right

def lt (column : String) (right : Term) : Condition := .compare .lt column right

def ge (column : String) (right : Term) : Condition := .compare .ge column right

def le (column : String) (right : Term) : Condition := .compare .le column right

def all (members : List Condition) : Condition := .group .all members

def any (members : List Condition) : Condition := .group .any members

def negate (condition : Condition) : Condition := .negation condition

def isGroup : Condition → Bool
  | .group .. => true
  | _ => false

/-- A condition after a current one under a connective. Without a current one it stands alone. -/
def combine (connective : Connective) (current : Option Condition) (condition : Condition) :
    Condition :=
  match current with
  | some first => .group connective [first, condition]
  | none => condition

mutual

def equals : Condition → Condition → Bool
  | .compare comparator column right, .compare comparator' column' right' =>
    comparator == comparator' && column == column' && right == right'
  | .group connective members, .group connective' members' =>
    connective == connective' && equalsAll members members'
  | .negation negated, .negation negated' => equals negated negated'
  | _, _ => false

def equalsAll : List Condition → List Condition → Bool
  | [], [] => true
  | left :: lefts, right :: rights => equals left right && equalsAll lefts rights
  | _, _ => false

end

instance : BEq Condition := ⟨equals⟩

@[simp] theorem combine_none (connective : Connective) (condition : Condition) :
    combine connective none condition = condition := rfl

@[simp] theorem combine_some (connective : Connective) (first second : Condition) :
    combine connective (some first) second = .group connective [first, second] := rfl

end Condition

end BoundQuery
