import BoundQuery.Proofs.Condition.Malformed
import BoundQuery.Proofs.Statement.Parts
import BoundQuery.Proofs.Text.Balance

/-!
# Marks and parentheses of a condition

How many placeholder marks and parentheses stand in the text of a condition. A group adds one pair
and a bound term one mark; whatever else there is comes from the verbatim texts, which may hold
any number of either.
-/

set_option autoImplicit false

namespace BoundQuery

namespace Condition

/-- The number of groups in a condition, itself included. -/
def groups (condition : Condition) : Nat :=
  condition.nodes.countP isGroup

/-- How often a character stands in the verbatim texts of a condition. -/
def verbatimCount (char : Char) (condition : Condition) : Nat :=
  (condition.verbatim.map fun text => text.toList.count char).sum

theorem groups_group (connective : Connective) (members : List Condition) :
    groups (.group connective members) = (nodesOf members).countP isGroup + 1 := by
  rw [groups, nodes_group, List.countP_cons_of_pos rfl]

theorem count_parenthesized (char : Char) (text : String) :
    ("(" ++ text ++ ")").toList.count char = text.toList.count char + "()".toList.count char := by
  have pair : "()".toList = "(".toList ++ ")".toList := rfl
  simp only [pair, String.toList_append, List.count_append]
  omega

private theorem count_slotText (char : Char) (term : Term) :
    term.slotText.toList.count char =
      term.bound?.toList.length * Term.placeholder.toList.count char +
        (term.verbatim.map fun text => text.toList.count char).sum := by
  cases term with
  | raw text => simp [Term.slotText, Term.bound?, Term.verbatim]
  | literal datum | bind datum => simp [Term.slotText, Term.bound?, Term.verbatim]

section Special

variable {char : Char}

private theorem count_of_isPlain (special : char ∈ ['?', '(', ')']) {text : String}
    (plain : Text.IsPlain text) : text.toList.count char = 0 :=
  List.count_eq_zero.mpr (plain.not_mem special)

mutual

/-- The characters that are never plain come from pairs, marks and verbatim texts alone. -/
theorem count_spell_of_special (special : char ∈ ['?', '(', ')']) : ∀ condition : Condition,
    (condition.spell Term.slotText).toList.count char =
      condition.groups * "()".toList.count char +
        condition.data.length * Term.placeholder.toList.count char + condition.verbatimCount char
  | .compare comparator column right => by
    have text : spell Term.slotText (.compare comparator column right) =
        column ++ (" " ++ comparator.symbol ++ " ") ++ right.slotText := by
      simp [String.append_assoc]
    have noGroup : groups (.compare comparator column right) = 0 := rfl
    have symbol := count_of_isPlain special comparator.isPlain_symbol
    rw [text, String.toList_append, String.toList_append, List.count_append, List.count_append,
      symbol, count_slotText, noGroup, data_compare, verbatimCount, verbatim_compare,
      List.map_cons, List.sum_cons]
    omega
  | .group connective members => by
    have noneBetween := connective.isPlain_word.not_mem special
    have inner := count_spellAll_of_special special members
    simp only [spell_group, count_parenthesized, Text.count_intercalate noneBetween, inner,
      groups_group, data, terms_group, verbatimCount, verbatim_group, Nat.add_mul]
    omega
  | .negation negated => by
    have word := count_of_isPlain special (by decide : Text.IsPlain (negationWord ++ " "))
    have inner := count_spell_of_special special negated
    rw [spell_negation, String.toList_append, List.count_append, word, inner, data_negation]
    simp [groups, verbatimCount, isGroup]

theorem count_spellAll_of_special (special : char ∈ ['?', '(', ')']) :
    ∀ members : List Condition,
    ((spellAll Term.slotText members).map fun text => text.toList.count char).sum =
      (nodesOf members).countP isGroup * "()".toList.count char +
        ((termsOf members).filterMap Term.bound?).length * Term.placeholder.toList.count char +
        ((verbatimOf members).map fun text => text.toList.count char).sum
  | [] => by simp
  | member :: rest => by
    have first := count_spell_of_special special member
    have others := count_spellAll_of_special special rest
    simp only [groups, data, verbatimCount] at first
    simp only [spellAll_cons, nodesOf_cons, termsOf_cons, verbatimOf_cons, List.map_cons,
      List.sum_cons, first, others, List.countP_append, List.filterMap_append, List.length_append,
      List.map_append, List.sum_append, Nat.add_mul]
    omega

end

end Special

theorem count_pair_of_isParen {paren : Char} (isParen : paren ∈ ['(', ')']) :
    "()".toList.count paren = 1 := by
  rcases List.mem_pair.mp isParen with rfl | rfl <;> decide

theorem count_spell {paren : Char} (isParen : paren ∈ ['(', ')']) (condition : Condition) :
    (condition.spell Term.slotText).toList.count paren =
      condition.groups + condition.verbatimCount paren := by
  have counted := count_spell_of_special (List.mem_cons_of_mem _ isParen) condition
  have noMark : Term.placeholder.toList.count paren = 0 := by
    rcases List.mem_pair.mp isParen with rfl | rfl <;> decide
  rw [count_pair_of_isParen isParen, noMark] at counted
  omega

theorem count_mark_spell (condition : Condition) :
    (condition.spell Term.slotText).toList.count '?' =
      condition.data.length + condition.verbatimCount '?' := by
  have counted := count_spell_of_special (by decide : '?' ∈ ['?', '(', ')']) condition
  have noPair : "()".toList.count '?' = 0 := by decide
  have oneMark : Term.placeholder.toList.count '?' = 1 := by decide
  rw [noPair, oneMark] at counted
  omega

end Condition

end BoundQuery
