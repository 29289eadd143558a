import BoundQuery.Fragment.Assembly
import BoundQuery.Proofs.Equality.Partial
import BoundQuery.Proofs.Statement.Layout

/-!
# Equality of values

Which values equal a given one, constructor by constructor, and from this the law of equality for
data, terms, conditions, fragments, pieces and queries. Trees are compared node by node; only the
data at their leaves may differ between equal trees.
-/

set_option autoImplicit false

namespace BoundQuery

theorem Double.partialAt (number : Double) :
    PartialAt Equals (fun number => [.double number]) number where
  symm := by
    intro other same
    rwa [Equals, beq_comm]
  trans := beq_trans
  self_iff := by
    rw [Equals, beq_self]
    simp [Datum.isNaN]

theorem Timestamp.partialAt (stamp : Timestamp) :
    PartialAt Equals (fun stamp => [.timestamp stamp]) stamp where
  symm := fun same => beq_iff.mpr (beq_iff.mp same).symm
  trans := fun first second => beq_iff.mpr ((beq_iff.mp first).trans (beq_iff.mp second))
  self_iff := iff_of_true (beq_iff.mpr rfl) (List.forall_mem_singleton.mpr rfl)

namespace Datum

theorem beq_eq (left right : Datum) : (left == right) = left.equals right := rfl

theorem equals_double_iff {number : Double} {other : Datum} :
    Equals (.double number) other ↔ ∃ inner, .double inner = other ∧ Equals number inner := by
  cases other <;> simp [Equals, beq_eq, equals]

theorem equals_timestamp_iff {stamp : Timestamp} {other : Datum} :
    Equals (.timestamp stamp) other ↔ ∃ inner, .timestamp inner = other ∧ Equals stamp inner := by
  cases other <;> simp [Equals, beq_eq, equals]

theorem partialAt (datum : Datum) : PartialAt Equals (fun datum => [datum]) datum := by
  cases datum with
  | double number =>
    exact .wrap double.inj (fun _ _ => equals_double_iff) (fun _ => rfl) number.partialAt
  | timestamp stamp =>
    exact .wrap timestamp.inj (fun _ _ => equals_timestamp_iff) (fun _ => rfl) stamp.partialAt
  | null | bool value | int value | uint value | text value | bytes value =>
    apply PartialAt.exact
    · intro other
      cases other <;> simp [Equals, beq_eq, equals]
    · exact List.forall_mem_singleton.mpr rfl

end Datum

namespace Term

theorem beq_eq (left right : Term) : (left == right) = left.equals right := rfl

/-- The datum that a term was made from, before a literal is normalised. -/
def given : Term → List Datum
  | .literal datum | .bind datum => [datum]
  | .raw _ => []

theorem equals_literal_iff {datum : Datum} {other : Term} :
    Equals (.literal datum) other ↔ ∃ inner, .literal inner = other ∧ Equals datum inner := by
  cases other <;> simp [Equals, beq_eq, equals]

theorem equals_bind_iff {datum : Datum} {other : Term} :
    Equals (.bind datum) other ↔ ∃ inner, .bind inner = other ∧ Equals datum inner := by
  cases other <;> simp [Equals, beq_eq, equals]

theorem equals_raw_iff {text : String} {other : Term} :
    Equals (.raw text) other ↔ .raw text = other := by
  cases other <;> simp [Equals, beq_eq, equals]

theorem partialAt (term : Term) : PartialAt Equals given term := by
  cases term with
  | literal datum =>
    exact .wrap literal.inj (fun _ _ => equals_literal_iff) (fun _ => rfl) datum.partialAt
  | bind datum => exact .wrap bind.inj (fun _ _ => equals_bind_iff) (fun _ => rfl) datum.partialAt
  | raw text => exact .exact (fun _ => equals_raw_iff) (List.forall_mem_nil _)

end Term

namespace Fragment

theorem beq_eq (left right : Fragment) : (left == right) = left.equals right := rfl

theorem equals_iff {left right : Fragment} :
    Equals left right ↔ left.text = right.text ∧ List.Forall₂ Equals left.binds right.binds := by
  simp [Equals, beq_eq, equals, beq_list_iff]

theorem partialAt (fragment : Fragment) : PartialAt Equals binds fragment := by
  have inner := PartialAt.list fun datum (_ : datum ∈ fragment.binds) => datum.partialAt
  refine .wrap (fun same => (mk.inj same).2) ?_ (fun _ => (List.flatMap_singleton' _).symm) inner
  intro binds other
  rw [equals_iff]
  constructor
  · rintro ⟨sameText, same⟩
    exact ⟨other.binds, by rw [sameText], same⟩
  · rintro ⟨inner, rfl, same⟩
    exact ⟨rfl, same⟩

end Fragment

namespace Condition

theorem beq_eq (left right : Condition) : (left == right) = left.equals right := rfl

def given (condition : Condition) : List Datum :=
  condition.terms.flatMap Term.given

theorem equals_compare_iff {comparator : Comparator} {column : String} {right : Term}
    {other : Condition} :
    Equals (.compare comparator column right) other ↔
      ∃ inner, .compare comparator column inner = other ∧ Equals right inner := by
  cases other <;> simp [Equals, beq_eq, equals, and_assoc]

theorem equalsAll_iff {lefts rights : List Condition} :
    equalsAll lefts rights = true ↔ List.Forall₂ Equals lefts rights := by
  induction lefts generalizing rights with
  | nil => cases rights <;> simp [equalsAll]
  | cons left lefts ih => cases rights <;> simp [equalsAll, ih, Equals, beq_eq]

theorem equals_group_iff {connective : Connective} {members : List Condition}
    {other : Condition} :
    Equals (.group connective members) other ↔
      ∃ inner, .group connective inner = other ∧ List.Forall₂ Equals members inner := by
  cases other <;> simp [Equals, beq_eq, equals, equalsAll_iff]

theorem equals_negation_iff {negated other : Condition} :
    Equals (.negation negated) other ↔
      ∃ inner, .negation inner = other ∧ Equals negated inner := by
  cases other <;> simp [Equals, beq_eq, equals]

theorem partialAt (condition : Condition) : PartialAt Equals given condition := by
  induction condition with
  | compare comparator column right =>
    refine .wrap (fun same => (compare.inj same).2.2) (fun _ _ => equals_compare_iff) ?_
      right.partialAt
    intro term
    exact List.flatMap_singleton _ _
  | group connective members ih =>
    refine .wrap (fun same => (group.inj same).2) (fun _ _ => equals_group_iff) ?_ (.list ih)
    intro members
    rw [given, terms_group, termsOf_eq_flatMap, List.flatMap_assoc]
    rfl
  | negation negated ih =>
    exact .wrap negation.inj (fun _ _ => equals_negation_iff) (fun _ => rfl) ih

end Condition

namespace Piece

theorem beq_eq (left right : Piece) : (left == right) = left.equals right := rfl

def given (piece : Piece) : List Datum :=
  piece.leaves.flatMap Fragment.binds

theorem equals_text_iff {text : String} {other : Piece} :
    Equals (.text text) other ↔ .text text = other := by
  cases other <;> simp [Equals, beq_eq, equals]

theorem equals_fragment_iff {part : Fragment} {other : Piece} :
    Equals (.fragment part) other ↔ ∃ inner, .fragment inner = other ∧ Equals part inner := by
  cases other <;> simp [Equals, beq_eq, equals]

theorem equalsAll_iff {lefts rights : List Piece} :
    equalsAll lefts rights = true ↔ List.Forall₂ Equals lefts rights := by
  induction lefts generalizing rights with
  | nil => cases rights <;> simp [equalsAll]
  | cons left lefts ih => cases rights <;> simp [equalsAll, ih, Equals, beq_eq]

theorem equals_group_iff {pieces : List Piece} {other : Piece} :
    Equals (.group pieces) other ↔
      ∃ inner, .group inner = other ∧ List.Forall₂ Equals pieces inner := by
  cases other <;> simp [Equals, beq_eq, equals, equalsAll_iff]

theorem partialAt (piece : Piece) : PartialAt Equals given piece := by
  induction piece with
  | text content => exact .exact (fun _ => equals_text_iff) (List.forall_mem_nil _)
  | fragment part =>
    refine .wrap fragment.inj (fun _ _ => equals_fragment_iff) ?_ part.partialAt
    intro inner
    exact List.flatMap_singleton _ _
  | group pieces ih =>
    refine .wrap group.inj (fun _ _ => equals_group_iff) ?_ (.list ih)
    intro members
    rw [given, leaves_group, leavesOf_eq_flatMap, List.flatMap_assoc]
    rfl

end Piece

namespace Query

def given (query : Query) : List Datum :=
  query.values.flatMap Term.given ++ query.filter.elim [] Condition.given

/-- The query with other values and another filter, the only parts that hold data. -/
def withData (query : Query) (parts : List Term × Option Condition) : Query :=
  { query with values := parts.1, filter := parts.2 }

theorem beq_eq (left right : Query) : (left == right) = left.equals right := rfl

/-- Equal queries may differ in their values and filters, and agree in all else. -/
theorem equals_iff {left right : Query} :
    Equals left right ↔
      ∃ parts, left.withData parts = right ∧
        List.Forall₂ Equals left.values parts.1 ∧ Option.Rel Equals left.filter parts.2 := by
  rw [Equals, beq_eq, equals]
  simp only [Bool.and_eq_true, and_assoc]
  constructor
  · rintro ⟨operation, table, columns, values, filter, limit, offset, order⟩
    refine ⟨(right.values, right.filter), ?_, beq_list_iff.mp values, beq_option_iff.mp filter⟩
    rw [withData, eq_of_beq operation, eq_of_beq table, eq_of_beq columns, eq_of_beq limit,
      eq_of_beq offset, eq_of_beq order]
  · rintro ⟨⟨values, filter⟩, rfl, sameValues, sameFilter⟩
    exact ⟨beq_self_eq_true _, beq_self_eq_true _, beq_self_eq_true _, beq_list_iff.mpr sameValues,
      beq_option_iff.mpr sameFilter, beq_self_eq_true _, beq_self_eq_true _, beq_self_eq_true _⟩

theorem partialAt (query : Query) : PartialAt Equals given query := by
  have values := PartialAt.list fun term (_ : term ∈ query.values) => term.partialAt
  have filter := PartialAt.option fun condition (_ : condition ∈ query.filter) =>
    condition.partialAt
  have whole : PartialAt Equals given (query.withData (query.values, query.filter)) := by
    refine .wrap ?_ (fun _ _ => equals_iff) (fun _ => rfl) (values.pair filter)
    intro parts parts' same
    exact Prod.ext (congrArg Query.values same) (congrArg Query.filter same)
  exact whole

end Query

end BoundQuery
