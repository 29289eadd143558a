import BoundQuery.Proofs.Condition.Counting

/-!
# Parentheses

A condition is written with one pair of parentheses for every group, and a statement with no others
but the two pairs of an insertion. So statements are balanced where the verbatim texts are. The
pair that CQL leaves out is found by its position in the text, and yet it is always a pair.
-/

set_option autoImplicit false

namespace BoundQuery

theorem Text.cumulative_balanced : Cumulative Balanced where
  plain := fun plain => .plain (plain.not_mem (by decide)) (plain.not_mem (by decide))
  append := Balanced.append

theorem Term.balanced_slotText {term : Term}
    (balanced : ∀ text ∈ term.verbatim, Text.Balanced text) : Text.Balanced term.slotText := by
  cases term with
  | raw text => exact balanced text List.mem_cons_self
  | literal datum | bind datum => exact (by decide : Text.Balanced placeholder)

namespace Condition

mutual

theorem balanced_spell : ∀ condition : Condition,
    (∀ text ∈ condition.verbatim, Text.Balanced text) →
    Text.Balanced (condition.spell Term.slotText)
  | .compare comparator column right, balanced => by
    obtain ⟨columnBalanced, rightBalanced⟩ := List.forall_mem_cons.mp balanced
    have symbol := Text.cumulative_balanced.plain comparator.isPlain_symbol
    have written := (columnBalanced.append symbol).append (Term.balanced_slotText rightBalanced)
    simpa [String.append_assoc] using written
  | .group connective members, balanced => by
    have inner := Text.cumulative_balanced.intercalate connective.isPlain_word
      (balanced_spellAll members balanced)
    exact inner.parenthesized
  | .negation negated, balanced => by
    have word : Text.Balanced (negationWord ++ " ") := .plain (by decide) (by decide)
    exact word.append (balanced_spell negated balanced)

theorem balanced_spellAll : ∀ members : List Condition,
    (∀ text ∈ verbatimOf members, Text.Balanced text) →
    ∀ text ∈ spellAll Term.slotText members, Text.Balanced text
  | [], _ => List.forall_mem_nil _
  | member :: rest, balanced => by
    obtain ⟨memberBalanced, restBalanced⟩ := List.forall_mem_append.mp balanced
    exact List.forall_mem_cons.mpr
      ⟨balanced_spell member memberBalanced, balanced_spellAll rest restBalanced⟩

end

/-- Without its outermost pair a group is still balanced: its members are, one by one. -/
theorem balanced_spellIn (dialect : Dialect) {condition : Condition}
    (balanced : ∀ text ∈ condition.verbatim, Text.Balanced text) :
    Text.Balanced (condition.spellIn Term.slotText dialect) := by
  rcases spellIn_cases dialect condition with whole | ⟨connective, members, rfl, rfl⟩
  · rw [whole]
    exact balanced_spell condition balanced
  · exact Text.cumulative_balanced.intercalate connective.isPlain_word
      (balanced_spellAll members balanced)

/-- CQL writes one pair less for a group at the root, and as many for anything else. -/
theorem count_spellIn_cql {paren : Char} (isParen : paren ∈ ['(', ')']) (condition : Condition) :
    (condition.spell Term.slotText).toList.count paren =
      (condition.spellIn Term.slotText .cql).toList.count paren +
        if condition.isGroup then 1 else 0 := by
  cases condition with
  | compare comparator column right => rfl
  | negation negated => rfl
  | group connective members =>
    have closed := count_parenthesized paren (spellIn Term.slotText .cql (.group connective members))
    rw [count_pair_of_isParen isParen] at closed
    exact closed

end Condition

namespace Query

variable {query : Query}

theorem balanced_filterParts (dialect : Dialect)
    (balanced : ∀ text ∈ query.filter.elim [] Condition.verbatim, Text.Balanced text) :
    ∀ part ∈ query.filterParts dialect Term.slotText, Text.Balanced part := by
  unfold filterParts
  cases present : query.filter with
  | none => exact List.forall_mem_nil _
  | some condition =>
    rw [present] at balanced
    have word : Text.Balanced "where" := by decide
    exact List.forall_mem_cons.mpr
      ⟨word, List.forall_mem_singleton.mpr (Condition.balanced_spellIn dialect balanced)⟩

theorem balanced_slotParts
    (balanced : ∀ text ∈ query.values.flatMap Term.verbatim, Text.Balanced text) :
    ∀ part ∈ query.slotParts Term.slotText, Text.Balanced part := by
  have slots : ∀ text ∈ (Style.writtenValues query.values).map Term.slotText,
      Text.Balanced text := by
    intro text isSlot
    obtain ⟨term, written, rfl⟩ := List.mem_map.mp isSlot
    apply Term.balanced_slotText
    intro text isVerbatim
    exact balanced text (List.mem_flatMap.mpr ⟨term, List.mem_of_mem_filter written, isVerbatim⟩)
  unfold slotParts
  cases written : Style.writtenValues query.values with
  | nil => exact List.forall_mem_nil _
  | cons first rest =>
    rw [written] at slots
    exact List.forall_mem_singleton.mpr (Text.cumulative_balanced.list slots)

/-- The parts of an insertion go down into each of its two pairs and come up again. -/
theorem nestsEach_parts (dialect : Dialect) {operation : Operation}
    (chosen : query.operation = some operation)
    (balanced : ∀ text ∈ query.verbatim, Text.Balanced text) :
    Text.NestsEach 0 0 (query.parts dialect Term.slotText operation) := by
  have cumulative := Text.cumulative_balanced
  unfold verbatim at balanced
  rw [chosen] at balanced
  cases operation with
  | select =>
    simp only [List.forall_mem_append] at balanced
    obtain ⟨⟨⟨⟨table, columns⟩, filter⟩, order⟩, limit⟩ := balanced
    apply Text.NestsEach.level
    simp only [parts, List.forall_mem_append, List.forall_mem_cons]
    have selection := Piece.forall_mem_visible (cumulative.selectionText columns)
    have words : Text.Balanced "select" ∧ Text.Balanced "from" := by decide
    exact ⟨⟨⟨⟨⟨⟨⟨words.1, List.forall_mem_nil _⟩, selection⟩, words.2, cumulative.table table,
      List.forall_mem_nil _⟩, balanced_filterParts dialect filter⟩, cumulative.orderParts order⟩,
      cumulative.limitParts limit⟩, cumulative.offsetParts query⟩
  | insert =>
    simp only [List.forall_mem_append] at balanced
    obtain ⟨⟨table, columns⟩, values⟩ := balanced
    have opening : Text.NestsEach 0 1 ["insert into", query.table.getD "", "("] :=
      .cons (.plain 0 (by decide) (by decide)) (.cons ((cumulative.table table).nests 0)
        (.singleton (.opening 0)))
    have between : Text.NestsEach 1 1 [")", "values", "("] :=
      .cons (.closing 0) (.cons (.plain 0 (by decide) (by decide)) (.singleton (.opening 0)))
    have names := opening.append
      (.level (Piece.forall_mem_visible (cumulative.list columns)) 1)
    have slots := (names.append between).append (.level (balanced_slotParts values) 1)
    exact slots.append (.singleton (.closing 0))
  | delete =>
    obtain ⟨table, filter⟩ := List.forall_mem_append.mp balanced
    apply Text.NestsEach.level
    simp only [parts, List.forall_mem_append, List.forall_mem_cons]
    have word : Text.Balanced "delete from" := by decide
    exact ⟨⟨word, cumulative.table table, List.forall_mem_nil _⟩,
      balanced_filterParts dialect filter⟩

theorem balanced_spell (dialect : Dialect)
    (balanced : ∀ text ∈ query.verbatim, Text.Balanced text) :
    Text.Balanced (query.spell dialect Term.slotText) := by
  unfold spell
  cases chosen : query.operation with
  | none => exact (by decide : Text.Balanced "")
  | some operation =>
    exact Text.Balanced.iff_nests.mpr
      ((query.nestsEach_parts dialect chosen balanced).intercalate (by decide) (by decide))

end Query

/-- Statements and filters are balanced where their verbatim texts are. The pair that CQL leaves
out belongs together, so what is left closes no parenthesis that it did not open. Whatever the
verbatim texts hold, each group adds one pair, and the root alone decides whether CQL has one
less. -/
theorem Dialect.parentheses_pair (dialect : Dialect) :
    (∀ (query : Query) (statement : Statement), (∀ text ∈ query.verbatim, Text.Balanced text) →
      (dialect.style.write query).value = .ok statement → Text.Balanced statement.text) ∧
    (∀ (condition : Condition) (fragment : Fragment),
      (∀ text ∈ condition.verbatim, Text.Balanced text) →
      dialect.style.filter condition = .ok fragment → Text.Balanced fragment.text) ∧
    (∀ (condition : Condition) (whole : Fragment),
      (∀ text ∈ condition.verbatim, Text.Balanced text) → condition.isGroup = true →
      Dialect.standard.style.filter condition = .ok whole →
      Text.Enclosed whole.text ∧ ∃ bare, Dialect.cql.style.filter condition = .ok bare ∧
        whole = bare.parenthesized ∧ Text.Balanced bare.text) ∧
    ∀ (condition : Condition) (whole : Fragment),
      Dialect.standard.style.filter condition = .ok whole →
      ∃ bare, Dialect.cql.style.filter condition = .ok bare ∧ ∀ paren ∈ ['(', ')'],
        whole.text.toList.count paren = condition.groups + condition.verbatimCount paren ∧
        whole.text.toList.count paren =
          bare.text.toList.count paren + if condition.isGroup then 1 else 0 := by
  refine ⟨?statements, ?filters, ?pair, ?counts⟩
  case statements =>
    intro query statement balanced written
    obtain ⟨-, rfl⟩ := write_eq_ok_iff.mp written
    exact query.balanced_spell dialect balanced
  case filters =>
    intro condition fragment balanced written
    obtain ⟨-, rfl⟩ := filter_eq_ok_iff.mp written
    exact Condition.balanced_spellIn dialect balanced
  case pair =>
    intro condition whole balanced isGroup written
    obtain ⟨wellFormed, rfl⟩ := filter_eq_ok_iff.mp written
    cases condition with
    | compare comparator column right => cases isGroup
    | negation negated => cases isGroup
    | group connective members =>
      have inner := Condition.balanced_spellIn .cql balanced
      exact ⟨inner.enclosed, _, filter_eq_ok_iff.mpr ⟨wellFormed, rfl⟩, rfl, inner⟩
  case counts =>
    intro condition whole written
    obtain ⟨wellFormed, rfl⟩ := filter_eq_ok_iff.mp written
    refine ⟨_, filter_eq_ok_iff.mpr ⟨wellFormed, rfl⟩, ?_⟩
    intro paren isParen
    exact ⟨Condition.count_spell isParen condition, Condition.count_spellIn_cql isParen condition⟩

/-- A filter that begins and ends with a group of its own, and columns and values with calls. -/
def Query.withCalls (operation : Operation) : Query where
  operation := some operation
  table := some "fruit"
  columns := ["count(size)"]
  values := [.raw "now()", .bind (.text ")")]
  filter := some (.any [.all [.eq "f(a)" (.bind (.int 1))], .all [.eq "b" (.raw "now()")]])

theorem Dialect.parentheses_pair_withCalls :
    (∀ text ∈ (Query.withCalls .insert).verbatim, Text.Balanced text) ∧
      Text.Balanced "insert into fruit ( count(size) ) values ( now(), ? )" ∧
      Text.Balanced "(f(a) = ?) or (b = now())" ∧
      Text.Enclosed "((f(a) = ?) or (b = now()))" ∧
      ∃ bare, Dialect.cql.style.filter (.any [.eq "a)" (.raw "(()")]) = .ok bare ∧
        "(a) = (())".toList.count ')' = 3 ∧ bare.text.toList.count ')' = 2 := by
  obtain ⟨statements, filters, pair, counts⟩ := Dialect.parentheses_pair .cql
  have balanced : ∀ text ∈ (Query.withCalls .insert).verbatim, Text.Balanced text := by decide
  have filterBalanced : ∀ text ∈ Condition.verbatim
      (.any [.all [.eq "f(a)" (.bind (.int 1))], .all [.eq "b" (.raw "now()")]]),
      Text.Balanced text := by decide
  obtain ⟨enclosed, -⟩ := pair _ ⟨"((f(a) = ?) or (b = now()))", [.int 1]⟩ filterBalanced rfl rfl
  obtain ⟨bare, written, parens⟩ := counts (.any [.eq "a)" (.raw "(()")]) ⟨"(a) = (())", []⟩ rfl
  obtain ⟨closing, oneLess⟩ := parens ')' (by decide)
  refine ⟨balanced, statements _ ⟨_, [.text ")"]⟩ balanced rfl,
    filters _ ⟨_, [.int 1]⟩ filterBalanced rfl, enclosed, bare, written, closing, ?_⟩
  exact Nat.succ.inj (oneLess.symm.trans closing)

end BoundQuery
