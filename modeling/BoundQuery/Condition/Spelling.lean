import BoundQuery.Condition.Rendering

/-!
# Spelling of conditions

The text of a condition and its data, read straight off the tree. Spelling checks nothing and
leaves open what stands in a slot. Where a condition has no fault, rendering it gives its spelling
with placeholders; where it has one, rendering fails with the first.
-/

set_option autoImplicit false

namespace BoundQuery

namespace Condition

mutual

/-- The text of a condition, given what is written for each term. -/
def spell (slot : Term → String) : Condition → String
  | .compare comparator column right => column ++ " " ++ comparator.symbol ++ " " ++ slot right
  | .group connective members =>
    "(" ++ (" " ++ connective.word ++ " ").intercalate (spellAll slot members) ++ ")"
  | .negation negated => negationWord ++ " " ++ spell slot negated

def spellAll (slot : Term → String) : List Condition → List String
  | [] => []
  | member :: rest => spell slot member :: spellAll slot rest

end

mutual

def terms : Condition → List Term
  | .compare _ _ right => [right]
  | .group _ members => termsOf members
  | .negation negated => terms negated

def termsOf : List Condition → List Term
  | [] => []
  | member :: rest => terms member ++ termsOf rest

end

def data (condition : Condition) : List Datum :=
  condition.terms.filterMap Term.bound?

def spelling (condition : Condition) : Fragment :=
  ⟨condition.spell Term.slotText, condition.data⟩

@[simp] theorem spell_compare (slot : Term → String) (comparator : Comparator) (column : String)
    (right : Term) :
    spell slot (.compare comparator column right) =
      column ++ " " ++ comparator.symbol ++ " " ++ slot right := rfl

@[simp] theorem spell_group (slot : Term → String) (connective : Connective)
    (members : List Condition) :
    spell slot (.group connective members) =
      "(" ++ (" " ++ connective.word ++ " ").intercalate (spellAll slot members) ++ ")" := rfl

@[simp] theorem spell_negation (slot : Term → String) (negated : Condition) :
    spell slot (.negation negated) = negationWord ++ " " ++ spell slot negated := rfl

@[simp] theorem spellAll_nil (slot : Term → String) : spellAll slot [] = [] := rfl

@[simp] theorem spellAll_cons (slot : Term → String) (member : Condition)
    (rest : List Condition) :
    spellAll slot (member :: rest) = spell slot member :: spellAll slot rest := rfl

theorem spellAll_eq_map (slot : Term → String) (members : List Condition) :
    spellAll slot members = members.map (spell slot) := by
  induction members with
  | nil => rfl
  | cons member rest ih => simp [ih]

@[simp] theorem terms_compare (comparator : Comparator) (column : String) (right : Term) :
    terms (.compare comparator column right) = [right] := rfl

@[simp] theorem terms_group (connective : Connective) (members : List Condition) :
    terms (.group connective members) = termsOf members := rfl

@[simp] theorem terms_negation (negated : Condition) :
    terms (.negation negated) = terms negated := rfl

@[simp] theorem termsOf_nil : termsOf [] = [] := rfl

@[simp] theorem termsOf_cons (member : Condition) (rest : List Condition) :
    termsOf (member :: rest) = terms member ++ termsOf rest := rfl

theorem termsOf_eq_flatMap (members : List Condition) :
    termsOf members = members.flatMap terms := by
  induction members with
  | nil => rfl
  | cons member rest ih => simp [ih]

theorem data_compare (comparator : Comparator) (column : String) (right : Term) :
    data (.compare comparator column right) = right.bound?.toList := by
  cases bound : right.bound? <;> simp [data, bound]

theorem data_group (connective : Connective) (members : List Condition) :
    data (.group connective members) = members.flatMap data := by
  simp only [data, terms_group, termsOf_eq_flatMap, List.filterMap_flatMap]
  rfl

theorem data_negation (negated : Condition) : data (.negation negated) = data negated := rfl

theorem spelling_group (connective : Connective) (members : List Condition) :
    spelling (.group connective members) =
      Fragment.parenthesized
        ⟨(" " ++ connective.word ++ " ").intercalate ((members.map spelling).map Fragment.text),
          (members.map spelling).flatMap Fragment.binds⟩ := by
  have texts : (members.map spelling).map Fragment.text = spellAll Term.slotText members := by
    simp [spellAll_eq_map, spelling]
  have binds : (members.map spelling).flatMap Fragment.binds = members.flatMap data := by
    simp [spelling, List.flatMap_map]
  rw [texts, binds, ← data_group connective]
  rfl

/-- A spelling is never empty, whatever is written in the slots. -/
theorem spell_ne_empty (slot : Term → String) (condition : Condition) :
    condition.spell slot ≠ "" := by
  cases condition with
  | compare comparator column right =>
    simp [String.append_eq_empty_iff, comparator.symbol_ne_empty]
  | group connective members => simp [String.append_eq_empty_iff]
  | negation negated => simp [String.append_eq_empty_iff, negationWord]

theorem leavesOf_alternate_cons_cons (connective : Connective) (member next : Fragment)
    (others : List Fragment) :
    Piece.leavesOf (alternate connective (member :: next :: others)) =
      member :: .ofText connective.word ::
        Piece.leavesOf (alternate connective (next :: others)) := by
  simp [alternate, List.intersperse_cons_cons]

/-- Members and words in turn, joined by spaces, are the members joined by the word. Members
without text would be left out, so there must be none. -/
theorem ofPieces_alternate (connective : Connective) {members : List Fragment}
    (written : ∀ member ∈ members, member.text ≠ "") :
    Fragment.ofPieces " " (alternate connective members) =
      ⟨(" " ++ connective.word ++ " ").intercalate (members.map Fragment.text),
        members.flatMap Fragment.binds⟩ := by
  rw [Fragment.ofPieces_eq_joinAll]
  induction members with
  | nil => rfl
  | cons member rest ih =>
    have memberText := written member List.mem_cons_self
    cases rest with
    | nil => simp [alternate]
    | cons next others =>
      have nextText := written next (by simp)
      have restJoined := ih fun other isOther => written other (List.mem_cons_of_mem _ isOther)
      have restText : (" " ++ connective.word ++ " ").intercalate
          ((next :: others).map Fragment.text) ≠ "" := by
        cases others with
        | nil => simpa using nextText
        | cons third more => simp [String.append_eq_empty_iff, nextText]
      rw [leavesOf_alternate_cons_cons, Fragment.joinAll_cons, Fragment.joinAll_cons, restJoined]
      have wordJoined : Fragment.joinTexts " " connective.word
          ((" " ++ connective.word ++ " ").intercalate ((next :: others).map Fragment.text)) ≠ "" :=
        fun noText => restText (Fragment.joinTexts_eq_empty_iff.mp noText).2
      simp only [Fragment.join, Fragment.text_ofText, Fragment.binds_ofText, List.nil_append]
      rw [Fragment.joinTexts_of_ne memberText wordJoined,
        Fragment.joinTexts_of_ne connective.word_ne_empty restText]
      simp [String.append_assoc]

mutual

theorem render_eq : ∀ condition : Condition,
    condition.render =
      match condition.faults with
      | [] => .ok condition.spelling
      | fault :: _ => .error fault
  | .compare comparator column right => by
    rw [faults_compare, comparisonFault?, render]
    split
    · rfl
    · rename_i columnWritten
      split
      · rfl
      · rename_i rightWritten
        have columnText : column ≠ "" := by
          rintro rfl
          exact columnWritten Text.isBlank_empty
        have rightText := right.slotText_ne_empty (Bool.eq_false_iff.mpr rightWritten)
        simp [Fragment.ofPieces_eq_joinAll, Fragment.join, Fragment.joinTexts, spelling,
          data_compare, Fragment.empty, Term.fragment, columnText, rightText,
          comparator.symbol_ne_empty, String.append_assoc]
  | .group connective [] => rfl
  | .group connective (member :: rest) => by
    rw [render_group_cons, renderAll_eq (member :: rest), faults_group_cons]
    cases faultsOf (member :: rest) with
    | cons fault others => rfl
    | nil =>
      have written : ∀ part ∈ (member :: rest).map spelling, part.text ≠ "" := by
        intro part isPart
        obtain ⟨source, _, rfl⟩ := List.mem_map.mp isPart
        exact spell_ne_empty _ source
      simp only [Except.map, ofPieces_alternate connective written, spelling_group]
  | .negation negated => by
    rw [render_negation, render_eq negated, faults_negation]
    cases negated.faults with
    | cons fault others => rfl
    | nil =>
      simp [Except.map, Fragment.ofPieces_eq_joinAll, Fragment.join, spelling, data,
        Fragment.empty, Fragment.joinTexts_of_ne, negationWord, spell_ne_empty]

theorem renderAll_eq : ∀ members : List Condition,
    renderAll members =
      match faultsOf members with
      | [] => .ok (members.map spelling)
      | fault :: _ => .error fault
  | [] => rfl
  | member :: rest => by
    rw [renderAll, render_eq member, renderAll_eq rest, faultsOf_cons]
    cases member.faults with
    | nil => cases faultsOf rest <;> rfl
    | cons fault others => rfl

end

/-- Exactly the conditions without a fault can be rendered, and there is one result for each. -/
theorem render_eq_ok_iff {condition : Condition} {fragment : Fragment} :
    condition.render = .ok fragment ↔ condition.WellFormed ∧ fragment = condition.spelling := by
  rw [render_eq, WellFormed]
  cases condition.faults with
  | nil => simp [eq_comm]
  | cons fault others => simp

/-- Rendering fails with the fault that a reader of the tree meets first. -/
theorem render_eq_error_iff {condition : Condition} {fault : ConditionFault} :
    condition.render = .error fault ↔ condition.faults.head? = some fault := by
  rw [render_eq]
  cases condition.faults with
  | nil => simp
  | cons first others => simp

end Condition

end BoundQuery
