import BoundQuery.Proofs.Condition.Counting

/-!
# Rules of writing

What a condition is written as, told by one rule for each kind of node. The rules know nothing of
joining, and would keep a part that has no text. Rendering joins pieces and drops those without
text, and agrees with the rules because a condition without malformed nodes has no such piece.
-/

set_option autoImplicit false

namespace BoundQuery

namespace Condition

/-- The fragment is what the rules give for the condition, malformed or not. -/
inductive Spelled : Condition → Fragment → Prop where
  | bound {comparator : Comparator} {column : String} {right : Term} {datum : Datum} :
      right.bound? = some datum →
      Spelled (.compare comparator column right)
        ⟨column ++ " " ++ comparator.symbol ++ " " ++ "?", [datum]⟩
  | raw {comparator : Comparator} {column text : String} :
      Spelled (.compare comparator column (.raw text))
        ⟨column ++ " " ++ comparator.symbol ++ " " ++ text, []⟩
  | group {connective : Connective} {members : List Condition} {parts : List Fragment} :
      List.Forall₂ Spelled members parts →
      Spelled (.group connective members)
        ⟨"(" ++ (" " ++ connective.word ++ " ").intercalate (parts.map Fragment.text) ++ ")",
          parts.flatMap Fragment.binds⟩
  | negation {negated : Condition} {part : Fragment} :
      Spelled negated part → Spelled (.negation negated) ⟨"not " ++ part.text, part.binds⟩

def members : Condition → List Condition
  | .compare .. => []
  | .group _ members => members
  | .negation negated => [negated]

/-- What is joined for a node, given the fragments of its members. -/
def pieces : Condition → List Fragment → List Piece
  | .compare comparator column right, _ =>
    [.text column, .text comparator.symbol, .fragment right.fragment]
  | .group connective _, parts => alternate connective parts
  | .negation _, parts => .text negationWord :: parts.map .fragment

def enclose : Condition → Fragment → Fragment
  | .group .., joined => joined.parenthesized
  | _, joined => joined

/-- The node is joined from pieces that all have text, so that none of them is dropped. -/
def JoinedWhole (node : Condition) : Prop :=
  ∃ parts, renderAll node.members = .ok parts ∧
    node.render = .ok (node.enclose (.ofPieces " " (node.pieces parts))) ∧
    ∀ leaf ∈ Piece.leavesOf (node.pieces parts), leaf.text ≠ ""

theorem Spelled.eq_spelling {condition : Condition} {fragment : Fragment}
    (spelled : Spelled condition fragment) : fragment = condition.spelling := by
  -- The rule for groups relates whole lists, which need a motive of their own.
  induction spelled using Spelled.rec
      (motive_2 := fun members parts _ => parts = members.map spelling) with
  | @bound comparator column right datum bound =>
    have slot : right.slotText = "?" := by
      cases right with
      | raw text => cases bound
      | literal datum | bind datum => rfl
    simp [spelling, data_compare, bound, slot]
  | raw => rfl
  | group _ parts =>
    rw [parts, spelling_group]
    rfl
  | negation _ part =>
    rw [part]
    rfl
  | nil => rfl
  | cons _ _ first others => rw [first, others, List.map_cons]

theorem spelled_spelling (condition : Condition) : condition.Spelled condition.spelling := by
  induction condition with
  | compare comparator column right =>
    cases right with
    | raw text => exact .raw
    | literal datum | bind datum => exact .bound rfl
  | group connective members ih =>
    have parts : List.Forall₂ Spelled members (members.map spelling) := by
      rw [List.forall₂_map_right_iff, List.forall₂_same]
      exact ih
    rw [spelling_group]
    exact .group parts
  | negation negated ih => exact .negation ih

theorem spelled_iff {condition : Condition} {fragment : Fragment} :
    condition.Spelled fragment ↔ fragment = condition.spelling := by
  constructor
  · exact Spelled.eq_spelling
  · rintro rfl
    exact spelled_spelling condition

theorem wellFormed_of_mem_nodes {condition node : Condition} (wellFormed : condition.WellFormed)
    (isNode : node ∈ condition.nodes) : node.WellFormed := by
  induction condition with
  | compare comparator column right =>
    obtain rfl : node = .compare comparator column right := by simpa using isNode
    exact wellFormed
  | group connective members ih =>
    rw [nodes_group, nodesOf_eq_flatMap] at isNode
    rcases List.mem_cons.mp isNode with rfl | below
    · exact wellFormed
    · obtain ⟨member, isMember, within⟩ := List.mem_flatMap.mp below
      exact ih member isMember (wellFormed_of_mem wellFormed isMember) within
  | negation negated ih =>
    rcases List.mem_cons.mp isNode with rfl | below
    · exact wellFormed
    · exact ih wellFormed below

theorem mem_leavesOf_alternate {connective : Connective} {parts : List Fragment} {leaf : Fragment}
    (isLeaf : leaf ∈ Piece.leavesOf (alternate connective parts)) :
    leaf ∈ parts ∨ leaf = .ofText connective.word := by
  induction parts with
  | nil => cases isLeaf
  | cons part rest ih =>
    cases rest with
    | nil => exact .inl isLeaf
    | cons next others =>
      rw [leavesOf_alternate_cons_cons] at isLeaf
      rcases List.mem_cons.mp isLeaf with rfl | isLater
      · exact .inl List.mem_cons_self
      · rcases List.mem_cons.mp isLater with isWord | isOther
        · exact .inr isWord
        · exact (ih isOther).imp_left (List.mem_cons_of_mem _)

theorem renderAll_of_wellFormed {members : List Condition}
    (wellFormed : ∀ member ∈ members, member.WellFormed) :
    renderAll members = .ok (members.map spelling) := by
  have noFault : faultsOf members = [] := by
    rw [faultsOf_eq_flatMap, List.flatMap_eq_nil_iff]
    exact wellFormed
  rw [renderAll_eq, noFault]

theorem text_ne_empty_of_mem_map_spelling {members : List Condition} {part : Fragment}
    (isPart : part ∈ members.map spelling) : part.text ≠ "" := by
  obtain ⟨member, -, rfl⟩ := List.mem_map.mp isPart
  exact spell_ne_empty _ member

/-- Blank operands are refused, words are never empty, and neither is what a member was rendered
as: nothing that is joined for a node lacks text. -/
theorem joinedWhole_of_wellFormed {node : Condition} (wellFormed : node.WellFormed) :
    node.JoinedWhole := by
  cases node with
  | compare comparator column right =>
    have noFault : comparisonFault? comparator column right = none := by
      simpa [WellFormed] using wellFormed
    obtain ⟨columnWritten, rightWritten⟩ := comparisonFault?_eq_none_iff.mp noFault
    refine ⟨[], rfl, ?_, ?_⟩
    · simp [render, columnWritten, rightWritten, enclose, pieces]
    · have columnText : column ≠ "" := by
        rintro rfl
        cases columnWritten
      simp [pieces, columnText, comparator.symbol_ne_empty, Term.fragment,
        Term.slotText_ne_empty rightWritten]
  | group connective members =>
    obtain ⟨first, rest, rfl⟩ := List.exists_cons_of_ne_nil (ne_nil_of_wellFormed wellFormed)
    have rendered := renderAll_of_wellFormed fun _ => wellFormed_of_mem wellFormed
    refine ⟨(first :: rest).map spelling, rendered, ?_, ?_⟩
    · rw [render_group_cons, rendered]
      rfl
    · intro leaf isLeaf
      rcases mem_leavesOf_alternate isLeaf with isPart | rfl
      · exact text_ne_empty_of_mem_map_spelling isPart
      · exact connective.word_ne_empty
  | negation negated =>
    have rendered : negated.render = .ok negated.spelling :=
      render_eq_ok_iff.mpr ⟨wellFormed, rfl⟩
    refine ⟨[negated.spelling], ?_, ?_, ?_⟩
    · simp [members, renderAll, rendered, Except.map]
    · rw [render_negation, rendered]
      rfl
    · have negatedText : negated.spelling.text ≠ "" := spell_ne_empty _ negated
      simp [pieces, negatedText, negationWord]

end Condition

/-- Without a malformed node, a condition is rendered as the one fragment that the rules give for
it. Nothing is lost on the way, since no node is joined from pieces one of which has no text. The
marks in the text are those of its data and those of the columns and raw texts themselves. -/
theorem Condition.render_by_rules {condition : Condition}
    (sound : ∀ node ∈ condition.nodes, ∀ fault, ¬ node.Malformed fault) :
    ∃ fragment, condition.render = .ok fragment ∧
      (∀ other, condition.Spelled other ↔ other = fragment) ∧
      fragment.text ≠ "" ∧
      (∀ node ∈ condition.nodes, node.JoinedWhole) ∧
      fragment.text.toList.count '?' = fragment.binds.length + condition.verbatimCount '?' := by
  have wellFormed := wellFormed_iff.mpr sound
  refine ⟨condition.spelling, render_eq_ok_iff.mpr ⟨wellFormed, rfl⟩, ?_,
    spell_ne_empty _ condition, ?_, condition.count_mark_spell⟩
  · intro other
    exact spelled_iff
  · intro node isNode
    exact joinedWhole_of_wellFormed (wellFormed_of_mem_nodes wellFormed isNode)

/-- A condition whose texts look like parts of a statement: a mark, quotes, an opening parenthesis
and outer spaces. -/
def Condition.awkward : Condition :=
  .all [.negation (.any [.eq " a? " (.raw "'('")]), .ne "(b" (.bind (.text "?")),
    .lt "c" (.literal (.text "%@"))]

theorem Condition.render_by_rules_awkward :
    (∀ node ∈ Condition.awkward.nodes, ∀ fault, ¬ node.Malformed fault) ∧
      Condition.awkward.Spelled
        ⟨"(not ( a?  = '(') and (b != ? and c < ?)", [.text "?", .text "?"]⟩ ∧
      "(not ( a?  = '(') and (b != ? and c < ?)".toList.count '?' = 3 := by
  have sound := Condition.wellFormed_iff.mp (by decide : Condition.awkward.WellFormed)
  obtain ⟨fragment, rendered, rules, -, -, marks⟩ := Condition.render_by_rules sound
  have written : Condition.awkward.render =
      .ok ⟨"(not ( a?  = '(') and (b != ? and c < ?)", [.text "?", .text "?"]⟩ := rfl
  obtain rfl := Except.ok.inj (written.symm.trans rendered)
  exact ⟨sound, (rules _).mpr rfl, marks⟩

end BoundQuery
