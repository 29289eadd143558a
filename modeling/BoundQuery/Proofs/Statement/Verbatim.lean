import BoundQuery.Proofs.Text.Token
import BoundQuery.Query

/-!
# Verbatim texts

The texts of a caller that a statement repeats as they stand. The text of a bound datum is never
among them. A query may hold further texts, such as the columns of a deletion, that its statement
does not repeat.
-/

set_option autoImplicit false

namespace BoundQuery

def Term.verbatim : Term → List String
  | .raw text => [text]
  | _ => []

namespace Term

variable {reserved : List String} {term : Term}

theorem isWord_or_placeholder (words : ∀ text ∈ term.verbatim, IsWord reserved text) :
    IsWord reserved term.slotText ∨ term.slotText = placeholder := by
  cases term with
  | raw text => exact .inl (words text List.mem_cons_self)
  | literal datum | bind datum => exact .inr rfl

theorem isSolid_slotText (words : ∀ text ∈ term.verbatim, IsWord reserved text) :
    Token.IsSolid term.slotText := by
  rcases isWord_or_placeholder words with isWord | isPlaceholder
  · exact isWord.isSolid
  · rw [isPlaceholder]
    decide

end Term

namespace Condition

mutual

def verbatim : Condition → List String
  | .compare _ column right => column :: right.verbatim
  | .group _ members => verbatimOf members
  | .negation negated => verbatim negated

def verbatimOf : List Condition → List String
  | [] => []
  | member :: rest => verbatim member ++ verbatimOf rest

end

@[simp] theorem verbatim_compare (comparator : Comparator) (column : String) (right : Term) :
    verbatim (.compare comparator column right) = column :: right.verbatim := rfl

@[simp] theorem verbatim_group (connective : Connective) (members : List Condition) :
    verbatim (.group connective members) = verbatimOf members := rfl

@[simp] theorem verbatim_negation (negated : Condition) :
    verbatim (.negation negated) = verbatim negated := rfl

@[simp] theorem verbatimOf_nil : verbatimOf [] = [] := rfl

@[simp] theorem verbatimOf_cons (member : Condition) (rest : List Condition) :
    verbatimOf (member :: rest) = verbatim member ++ verbatimOf rest := rfl

theorem verbatimOf_eq_flatMap (members : List Condition) :
    verbatimOf members = members.flatMap verbatim := by
  induction members with
  | nil => rfl
  | cons member rest ih => simp [ih]

end Condition

def Limit.verbatim : Limit → List String
  | .placeholder text => [text]
  | .count _ => []

/-- The texts that a statement for a query repeats as they stand. -/
def Query.verbatim (query : Query) : List String :=
  match query.operation with
  | none => []
  | some .select =>
    query.table.toList ++ query.columns ++ query.filter.elim [] Condition.verbatim ++
      query.order ++ query.limit.elim [] Limit.verbatim
  | some .insert => query.table.toList ++ query.columns ++ query.values.flatMap Term.verbatim
  | some .delete => query.table.toList ++ query.filter.elim [] Condition.verbatim

end BoundQuery
