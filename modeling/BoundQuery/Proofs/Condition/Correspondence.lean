import BoundQuery.Proofs.Dialect.Filter
import Mathlib.Data.List.Forall2

/-!
# Corresponding conditions

Conditions with the same tree, whose terms and connectives are related one by one. What a
condition is written as depends on its terms only through the slots, so conditions that correspond
are written alike when their slots are.
-/

set_option autoImplicit false

namespace BoundQuery

namespace Term

/-- The same verbatim text, or two terms that are both bound, whatever their data and marks. -/
inductive Alike : Term → Term → Prop where
  | raw {text : String} : Alike (.raw text) (.raw text)
  | bound {left right : Term} : left.isRaw = false → right.isRaw = false → Alike left right

variable {left right : Term}

theorem Alike.slotText_eq (alike : Alike left right) : left.slotText = right.slotText := by
  cases alike with
  | raw => rfl
  | bound leftBound rightBound => cases left <;> cases right <;> simp_all [isRaw, slotText]

theorem Alike.isRaw_eq (alike : Alike left right) : left.isRaw = right.isRaw := by
  cases alike with
  | raw => rfl
  | bound leftBound rightBound => rw [leftBound, rightBound]

theorem Alike.isBlankRaw_eq (alike : Alike left right) : left.isBlankRaw = right.isBlankRaw := by
  cases alike with
  | raw => rfl
  | bound leftBound rightBound =>
    cases left <;> cases right <;> simp_all [isRaw, isBlankRaw]

end Term

namespace Condition

/-- The same tree with the same comparators and columns. Terms are related by `slots`, and the
connectives of two groups by `words`, which knows how many members they have. -/
inductive Corresponds (slots : Term → Term → Prop) (words : Nat → Connective → Connective → Prop) :
    Condition → Condition → Prop where
  | compare {comparator : Comparator} {column : String} {left right : Term} :
      slots left right →
      Corresponds slots words (.compare comparator column left) (.compare comparator column right)
  | group {left right : Connective} {lefts rights : List Condition} :
      words lefts.length left right → List.Forall₂ (Corresponds slots words) lefts rights →
      Corresponds slots words (.group left lefts) (.group right rights)
  | negation {left right : Condition} :
      Corresponds slots words left right →
      Corresponds slots words (.negation left) (.negation right)

namespace Corresponds

variable {slots : Term → Term → Prop} {words : Nat → Connective → Connective → Prop}

@[elab_as_elim]
theorem induction {motive : Condition → Condition → Prop}
    (compare : ∀ comparator column left right, slots left right →
      motive (.compare comparator column left) (.compare comparator column right))
    (group : ∀ left right lefts rights, words lefts.length left right →
      List.Forall₂ (Corresponds slots words) lefts rights → List.Forall₂ motive lefts rights →
      motive (.group left lefts) (.group right rights))
    (negation : ∀ left right, motive left right → motive (.negation left) (.negation right))
    {left right : Condition} (corresponds : Corresponds slots words left right) :
    motive left right :=
  Corresponds.rec (motive_1 := fun left right _ => motive left right)
    (motive_2 := fun lefts rights _ => List.Forall₂ motive lefts rights)
    (fun related => compare _ _ _ _ related)
    (fun related members membersHold => group _ _ _ _ related members membersHold)
    (fun _ negatedHolds => negation _ _ negatedHolds)
    .nil (fun _ _ headHolds tailHold => .cons headHolds tailHold) corresponds

/-- A connective is written only between members, so that of a single member does not show. -/
private theorem intercalate_word_eq {left right : Connective} {texts : List String}
    (same : 2 ≤ texts.length → left = right) :
    (" " ++ left.word ++ " ").intercalate texts = (" " ++ right.word ++ " ").intercalate texts := by
  match texts with
  | [] => simp
  | [text] => simp
  | first :: second :: others => rw [same (by simp)]

private theorem map_eq_of_forall₂ {α β : Type} {write write' : α → β} {lefts rights : List α}
    (same : List.Forall₂ (fun left right => write left = write' right) lefts rights) :
    lefts.map write = rights.map write' := by
  rw [← List.forall₂_eq_eq_eq, List.forall₂_map_left_iff, List.forall₂_map_right_iff]
  exact same

section Spelling

variable {slot slot' : Term → String}
  (sameSlots : ∀ left right, slots left right → slot left = slot' right)
  (sameWords : ∀ size left right, words size left right → 2 ≤ size → left = right)

include sameSlots sameWords

theorem spell_eq {left right : Condition} (corresponds : Corresponds slots words left right) :
    left.spell slot = right.spell slot' := by
  refine corresponds.induction ?compare ?group ?negation
  case compare =>
    intro comparator column left right related
    rw [spell_compare, spell_compare, sameSlots left right related]
  case group =>
    intro left right lefts rights related _ members
    rw [spell_group, spell_group, spellAll_eq_map, spellAll_eq_map, ← map_eq_of_forall₂ members,
      intercalate_word_eq]
    simpa using sameWords _ left right related
  case negation =>
    intro left right negated
    rw [spell_negation, spell_negation, negated]

theorem spellIn_eq {left right : Condition} (corresponds : Corresponds slots words left right)
    (dialect : Dialect) : left.spellIn slot dialect = right.spellIn slot' dialect := by
  have whole := corresponds.spell_eq sameSlots sameWords
  cases corresponds with
  | compare _ =>
    rw [spellIn_of_not_isGroup rfl, spellIn_of_not_isGroup rfl]
    exact whole
  | negation _ =>
    rw [spellIn_of_not_isGroup rfl, spellIn_of_not_isGroup rfl]
    exact whole
  | @group left right lefts rights related members =>
    cases dialect with
    | standard => exact whole
    | cql =>
      have texts : lefts.map (spell slot) = rights.map (spell slot') :=
        map_eq_of_forall₂ (members.imp fun _ _ member => member.spell_eq sameSlots sameWords)
      rw [spellIn_cql_group, spellIn_cql_group, spellAll_eq_map, spellAll_eq_map, ← texts,
        intercalate_word_eq]
      simpa using sameWords _ left right related

end Spelling

/-- A fault names the connective only of a group that has no members. -/
theorem faults_eq
    (sameBlanks : ∀ left right, slots left right → left.isBlankRaw = right.isBlankRaw)
    (sameEmpty : ∀ left right, words 0 left right → left = right) {left right : Condition}
    (corresponds : Corresponds slots words left right) : left.faults = right.faults := by
  refine corresponds.induction ?compare ?group ?negation
  case compare =>
    intro comparator column left right related
    rw [faults_compare, faults_compare, comparisonFault?, comparisonFault?,
      sameBlanks left right related]
  case group =>
    intro left right lefts rights related _ members
    cases members with
    | nil => rw [sameEmpty left right related]
    | @cons head head' rest rest' sameHead sameRest =>
      have same : (head :: rest).map faults = (head' :: rest').map faults :=
        map_eq_of_forall₂ (.cons sameHead sameRest)
      rw [faults_group_cons, faults_group_cons, faultsOf_eq_flatMap, faultsOf_eq_flatMap,
        List.flatMap_def, List.flatMap_def, same]
  case negation =>
    intro left right negated
    exact negated

theorem terms_forall₂ {left right : Condition} (corresponds : Corresponds slots words left right) :
    List.Forall₂ slots left.terms right.terms := by
  refine corresponds.induction ?compare ?group ?negation
  case compare =>
    intro comparator column left right related
    exact .cons related .nil
  case group =>
    intro left right lefts rights related _ members
    rw [terms_group, terms_group, termsOf_eq_flatMap, termsOf_eq_flatMap]
    exact List.rel_flatMap members fun _ _ terms => terms
  case negation =>
    intro left right negated
    exact negated

private theorem forall₂_append_inv {α β : Type} {related : α → β → Prop} {firsts others : List α}
    {firsts' others' : List β} (length : firsts.length = firsts'.length)
    (both : List.Forall₂ related (firsts ++ others) (firsts' ++ others')) :
    List.Forall₂ related firsts firsts' ∧ List.Forall₂ related others others' := by
  constructor
  · have taken := List.forall₂_take_append _ _ _ both
    rwa [← length, List.take_left] at taken
  · have dropped := List.forall₂_drop_append _ _ _ both
    rwa [← length, List.drop_left] at dropped

/-- Terms may be related anew: trees that correspond have their terms at the same places. -/
theorem of_terms {slots' : Term → Term → Prop} {left right : Condition}
    (corresponds : Corresponds slots words left right) :
    List.Forall₂ slots' left.terms right.terms → Corresponds slots' words left right := by
  refine corresponds.induction ?compare ?group ?negation
  case compare =>
    intro comparator column left right _ terms
    cases terms with
    | cons related _ => exact .compare related
  case group =>
    intro left right lefts rights related corresponding members terms
    refine .group related ?_
    -- The terms of the members are split up by the lengths that the old relation gives.
    rw [terms_group, terms_group] at terms
    clear related
    induction members with
    | nil => exact .nil
    | cons member _ ih =>
      cases corresponding with
      | cons first others =>
        rw [termsOf_cons, termsOf_cons] at terms
        obtain ⟨firstTerms, otherTerms⟩ :=
          forall₂_append_inv first.terms_forall₂.length_eq terms
        exact .cons (member firstTerms) (ih others otherTerms)
  case negation =>
    intro left right negated terms
    exact .negation (negated terms)

end Corresponds

end Condition

end BoundQuery
