import BoundQuery.Condition.Spelling
import Mathlib.Data.List.Forall2

/-!
# Partial equality

Equality of data compares doubles as numbers and timestamps as instants, and every other equality
goes down to that of data. So equal values need not be the same, and a value with a NaN in it is
not equal to itself. This is the only way in which equality fails to be an equivalence.
-/

set_option autoImplicit false

namespace BoundQuery

def Datum.isNaN : Datum → Bool
  | .double number => number.isNaN
  | _ => false

/-- The values compare as equal. They need not be the same. -/
abbrev Equals {α : Type} [BEq α] (left right : α) : Prop :=
  (left == right) = true

/-- From this value on the relation can be turned round and continued, and it relates the value to
itself exactly if there is no NaN among its data. -/
structure PartialAt {α : Type} (related : α → α → Prop) (data : α → List Datum) (value : α) :
    Prop where
  symm : ∀ {other}, related value other → related other value
  trans : ∀ {other last}, related value other → related other last → related value last
  self_iff : related value value ↔ ∀ datum ∈ data value, datum.isNaN = false

/-- Equality is symmetric and transitive, and it is reflexive but for the values that have a NaN
among their data. -/
structure PartialEquality (α : Type) [BEq α] (data : α → List Datum) : Prop where
  symm : ∀ {left right : α}, (left == right) = true → (right == left) = true
  trans : ∀ {left middle right : α}, (left == middle) = true → (middle == right) = true →
    (left == right) = true
  self_iff : ∀ value : α, (value == value) = true ↔ ∀ datum ∈ data value, datum.isNaN = false

theorem PartialEquality.of_partialAt {α : Type} [BEq α] {data : α → List Datum}
    (each : ∀ value : α, PartialAt Equals data value) : PartialEquality α data where
  symm := fun same => (each _).symm same
  trans := fun first second => (each _).trans first second
  self_iff := fun value => (each value).self_iff

namespace PartialAt

variable {α β : Type} {related : α → α → Prop} {data : α → List Datum}

/-- A value that is related to nothing but itself, and has no NaN. -/
theorem exact {value : α} (only : ∀ other, related value other ↔ value = other)
    (numbers : ∀ datum ∈ data value, datum.isNaN = false) : PartialAt related data value where
  symm := by
    intro other same
    obtain rfl := (only other).mp same
    exact same
  trans := by
    intro other last first second
    obtain rfl := (only other).mp first
    exact second
  self_iff := iff_of_true ((only value).mpr rfl) numbers

/-- A value that is related to another exactly if both wrap related values in the same way. -/
theorem wrap {outer : β → β → Prop} {outerData : β → List Datum} {wrap : α → β}
    (injective : ∀ {payload inner}, wrap payload = wrap inner → payload = inner)
    (outer_iff : ∀ payload other,
      outer (wrap payload) other ↔ ∃ inner, wrap inner = other ∧ related payload inner)
    (sameData : ∀ payload, outerData (wrap payload) = data payload) {payload : α}
    (inner : PartialAt related data payload) : PartialAt outer outerData (wrap payload) where
  symm := by
    intro other same
    obtain ⟨second, rfl, related⟩ := (outer_iff payload other).mp same
    exact (outer_iff second _).mpr ⟨payload, rfl, inner.symm related⟩
  trans := by
    intro other last first second
    obtain ⟨middle, rfl, toMiddle⟩ := (outer_iff payload other).mp first
    obtain ⟨final, rfl, toFinal⟩ := (outer_iff middle last).mp second
    exact (outer_iff payload _).mpr ⟨final, rfl, inner.trans toMiddle toFinal⟩
  self_iff := by
    rw [outer_iff, sameData, ← inner.self_iff]
    constructor
    · rintro ⟨other, same, related⟩
      obtain rfl := injective same
      exact related
    · intro related
      exact ⟨payload, rfl, related⟩

theorem pair {related' : β → β → Prop} {data' : β → List Datum} {first : α} {second : β}
    (firstAt : PartialAt related data first) (secondAt : PartialAt related' data' second) :
    PartialAt (fun left right : α × β => related left.1 right.1 ∧ related' left.2 right.2)
      (fun value => data value.1 ++ data' value.2) (first, second) where
  symm := fun same => ⟨firstAt.symm same.1, secondAt.symm same.2⟩
  trans := fun same next => ⟨firstAt.trans same.1 next.1, secondAt.trans same.2 next.2⟩
  self_iff := by
    rw [List.forall_mem_append, ← firstAt.self_iff, ← secondAt.self_iff]

theorem option {value : Option α} (each : ∀ inner ∈ value, PartialAt related data inner) :
    PartialAt (Option.Rel related) (fun value => value.elim [] data) value := by
  cases value with
  | none =>
    apply exact
    · intro other
      constructor
      · rintro ⟨⟩
        rfl
      · rintro rfl
        exact .none
    · exact List.forall_mem_nil _
  | some inner =>
    refine wrap Option.some.inj ?_ (fun _ => rfl) (each inner rfl)
    intro payload other
    constructor
    · rintro ⟨same⟩
      exact ⟨_, rfl, same⟩
    · rintro ⟨inner, rfl, same⟩
      exact .some same

theorem list {values : List α} (each : ∀ value ∈ values, PartialAt related data value) :
    PartialAt (List.Forall₂ related) (fun values => values.flatMap data) values where
  symm := by
    intro others same
    have turned := ((List.forall₂_and_left _ _).mpr ⟨each, same⟩).imp
      fun _ _ both => both.1.symm both.2
    exact turned.flip
  trans := by
    intro others last first second
    induction first generalizing last with
    | nil => exact second
    | cons head _ ih =>
      cases second with
      | cons next rest =>
        obtain ⟨headAt, restAt⟩ := List.forall_mem_cons.mp each
        exact .cons (headAt.trans head next) (ih restAt rest)
  self_iff := by
    rw [List.forall₂_same]
    constructor
    · intro same datum isDatum
      obtain ⟨value, isValue, inValue⟩ := List.mem_flatMap.mp isDatum
      exact (each value isValue).self_iff.mp (same value isValue) datum inValue
    · intro numbers value isValue
      refine (each value isValue).self_iff.mpr ?_
      intro datum inValue
      exact numbers datum (List.mem_flatMap.mpr ⟨value, isValue, inValue⟩)

end PartialAt

theorem beq_list_iff {α : Type} [BEq α] {lefts rights : List α} :
    (lefts == rights) = true ↔ List.Forall₂ Equals lefts rights := by
  induction lefts generalizing rights with
  | nil => cases rights <;> simp
  | cons left lefts ih => cases rights <;> simp [ih]

theorem beq_option_iff {α : Type} [BEq α] {left right : Option α} :
    (left == right) = true ↔ Option.Rel Equals left right := by
  cases left <;> cases right <;> simp

end BoundQuery
