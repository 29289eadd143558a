import BoundQuery.Condition.Spelling
import BoundQuery.Dialect

/-!
# Filters by dialect

The text of a filter in a dialect, read off the tree with the slots left open. Writing a filter
gives this text with placeholders, or the first fault of the tree. Nothing here looks at a text
for its parentheses: only the root of the tree decides whether a pair is left out.
-/

set_option autoImplicit false

namespace BoundQuery

namespace Condition

/-- The text of a condition in a dialect. CQL writes a group at the root without parentheses. -/
def spellIn (slot : Term → String) : Dialect → Condition → String
  | .cql, .group connective members =>
    (" " ++ connective.word ++ " ").intercalate (spellAll slot members)
  | _, condition => condition.spell slot

@[simp] theorem spellIn_standard (slot : Term → String) (condition : Condition) :
    spellIn slot .standard condition = condition.spell slot := rfl

@[simp] theorem spellIn_cql_group (slot : Term → String) (connective : Connective)
    (members : List Condition) :
    spellIn slot .cql (.group connective members) =
      (" " ++ connective.word ++ " ").intercalate (spellAll slot members) := rfl

/-- Only a group in CQL has a text of its own. -/
theorem spellIn_cases (dialect : Dialect) (condition : Condition) :
    (∀ slot, spellIn slot dialect condition = condition.spell slot) ∨
      ∃ connective members, dialect = .cql ∧ condition = .group connective members := by
  cases dialect with
  | standard => exact .inl fun _ => rfl
  | cql =>
    cases condition with
    | compare comparator column right => exact .inl fun _ => rfl
    | group connective members => exact .inr ⟨connective, members, rfl, rfl⟩
    | negation negated => exact .inl fun _ => rfl

theorem spellIn_of_not_isGroup {condition : Condition} (single : condition.isGroup = false)
    (slot : Term → String) (dialect : Dialect) :
    spellIn slot dialect condition = condition.spell slot := by
  rcases spellIn_cases dialect condition with whole | ⟨connective, members, rfl, rfl⟩
  · exact whole slot
  · cases single

/-- With its parentheses taken off by their position in the text, a spelled group is what CQL
writes for it. -/
theorem unparenthesized_spelling_group (connective : Connective) (members : List Condition) :
    (spelling (.group connective members)).unparenthesized =
      ⟨spellIn Term.slotText .cql (.group connective members),
        data (.group connective members)⟩ := by
  have parts : spelling (.group connective members) =
      Fragment.parenthesized ⟨spellIn Term.slotText .cql (.group connective members),
        data (.group connective members)⟩ := rfl
  rw [parts, Fragment.unparenthesized_parenthesized]

theorem wellFormed_of_mem {connective : Connective} {members : List Condition}
    (wellFormed : WellFormed (.group connective members)) {member : Condition}
    (isMember : member ∈ members) : member.WellFormed := by
  cases members with
  | nil => simp at isMember
  | cons first rest =>
    rw [WellFormed, faults_group_cons, faultsOf_eq_flatMap, List.flatMap_eq_nil_iff] at wellFormed
    exact wellFormed member isMember

theorem ne_nil_of_wellFormed {connective : Connective} {members : List Condition}
    (wellFormed : WellFormed (.group connective members)) : members ≠ [] := by
  rintro rfl
  simp [WellFormed] at wellFormed

/-- A member of a group is never written as an empty text, so neither is the group. -/
theorem spellIn_ne_empty (slot : Term → String) (dialect : Dialect) {condition : Condition}
    (wellFormed : condition.WellFormed) : spellIn slot dialect condition ≠ "" := by
  rcases spellIn_cases dialect condition with whole | ⟨connective, members, rfl, rfl⟩
  · rw [whole]
    exact spell_ne_empty slot condition
  · obtain ⟨first, rest, rfl⟩ := List.exists_cons_of_ne_nil (ne_nil_of_wellFormed wellFormed)
    have firstText := spell_ne_empty slot first
    cases rest with
    | nil => simpa using firstText
    | cons second others => simp [String.append_eq_empty_iff, firstText]

end Condition

namespace Dialect

/-- A filter is written as the text of its tree, with all of its data, unless the tree has a
fault; then the first fault in reading order is the error in every dialect. -/
theorem filter_eq (dialect : Dialect) (condition : Condition) :
    dialect.style.filter condition =
      match condition.faults with
      | [] => .ok ⟨condition.spellIn Term.slotText dialect, condition.data⟩
      | fault :: _ => .error (.invalidCondition fault) := by
  have rendered : Style.standard.filter condition =
      match condition.faults with
      | [] => .ok condition.spelling
      | fault :: _ => .error (.invalidCondition fault) := by
    change condition.render.mapError StatementError.invalidCondition = _
    rw [Condition.render_eq]
    cases condition.faults <;> rfl
  cases dialect with
  | standard => exact rendered
  | cql =>
    change (Style.standard.filter condition).map (fun fragment =>
      if condition.isGroup then fragment.unparenthesized else fragment) = _
    rw [rendered]
    cases condition.faults with
    | cons fault others => rfl
    | nil =>
      cases condition with
      | compare comparator column right => rfl
      | negation negated => rfl
      | group connective members =>
        exact congrArg Except.ok (Condition.unparenthesized_spelling_group connective members)

theorem filter_eq_ok_iff {dialect : Dialect} {condition : Condition} {fragment : Fragment} :
    dialect.style.filter condition = .ok fragment ↔
      condition.WellFormed ∧
        fragment = ⟨condition.spellIn Term.slotText dialect, condition.data⟩ := by
  rw [filter_eq, Condition.WellFormed]
  cases condition.faults with
  | nil => simp [eq_comm]
  | cons fault others => simp

theorem filter_eq_error_iff {dialect : Dialect} {condition : Condition} {error : StatementError} :
    dialect.style.filter condition = .error error ↔
      ∃ fault, condition.faults.head? = some fault ∧ error = .invalidCondition fault := by
  rw [filter_eq]
  cases condition.faults with
  | nil => simp
  | cons fault others => simp [eq_comm]

end Dialect

end BoundQuery
