import BoundQuery.Proofs.Statement.Layout
import Mathlib.Data.List.Forall2

/-!
# The difference between the dialects

The two dialects refuse the same queries and bind the same data. Their texts differ in one pair of
parentheses, which stands around a filter that is a group and is left out by CQL. No assumption is
made on the texts of the query; they may hold parentheses of their own.
-/

set_option autoImplicit false

namespace BoundQuery

namespace Text

variable (separator : String)

/-- What stands around one part of a joined text does not depend on that part. -/
theorem intercalate_around (before after : List String) :
    ∃ opening closing, ∀ part,
      separator.intercalate (before ++ part :: after) = opening ++ part ++ closing := by
  induction before with
  | nil =>
    cases after with
    | nil =>
      refine ⟨"", "", ?_⟩
      intro part
      simp
    | cons next others =>
      refine ⟨"", separator ++ separator.intercalate (next :: others), ?_⟩
      intro part
      simp [String.append_assoc]
  | cons first rest ih =>
    obtain ⟨opening, closing, around⟩ := ih
    refine ⟨first ++ separator ++ opening, closing, ?_⟩
    intro part
    rw [List.cons_append, String.intercalate_cons_of_ne_nil (by simp), around]
    simp only [String.append_assoc]

/-- Two neighbours may be joined beforehand. -/
theorem intercalate_merge (before after : List String) (first second : String) :
    separator.intercalate (before ++ first :: second :: after) =
      separator.intercalate (before ++ (first ++ separator ++ second) :: after) := by
  induction before with
  | nil => simp [String.append_assoc]
  | cons head rest ih =>
    rw [List.cons_append, List.cons_append, String.intercalate_cons_of_ne_nil (by simp),
      String.intercalate_cons_of_ne_nil (by simp), ih]

end Text

namespace Condition

/-- What is rendered for the members of a group is their spelling, one by one. -/
theorem forall₂_render_spelling {connective : Connective} {members : List Condition}
    (wellFormed : WellFormed (.group connective members)) :
    List.Forall₂ (fun member fragment => member.render = .ok fragment) members
      (members.map spelling) := by
  rw [List.forall₂_map_right_iff, List.forall₂_same]
  intro member isMember
  exact render_eq_ok_iff.mpr ⟨wellFormed_of_mem wellFormed isMember, rfl⟩

theorem spell_group_eq_parenthesized (slot : Term → String) (connective : Connective)
    (members : List Condition) :
    spell slot (.group connective members) =
      "(" ++ spellIn slot .cql (.group connective members) ++ ")" := rfl

end Condition

namespace Query

variable {query : Query}

/-- The query writes a filter, and the filter is a group. -/
def FiltersByGroup (query : Query) : Prop :=
  query.WritesFilter ∧ ∃ connective members, query.filter = some (.group connective members)

/-- The dialect shows in the filter and in no other part. -/
theorem parts_around_filter (query : Query) {operation : Operation}
    (filtered : operation = .select ∨ operation = .delete) :
    ∃ before after, ∀ dialect slot,
      query.parts dialect slot operation = before ++ query.filterParts dialect slot ++ after := by
  rcases filtered with rfl | rfl
  · refine ⟨["select"] ++ Piece.visible query.selectionText ++ ["from", query.table.getD ""],
      query.orderParts ++ query.limitParts ++ query.offsetParts, ?_⟩
    intro dialect slot
    simp [parts]
  · refine ⟨["delete from", query.table.getD ""], [], ?_⟩
    intro dialect slot
    simp [parts]

theorem spell_around_filter {condition : Condition} (filtered : query.WritesFilter)
    (filter : query.filter = some condition) :
    ∃ opening closing, ∀ dialect slot,
      query.spell dialect slot =
        opening ++ "where " ++ condition.spellIn slot dialect ++ closing := by
  obtain ⟨operation, chosen, isFiltered⟩ : ∃ operation, query.operation = some operation ∧
      (operation = .select ∨ operation = .delete) := by
    rcases filtered with chosen | chosen
    · exact ⟨_, chosen, .inl rfl⟩
    · exact ⟨_, chosen, .inr rfl⟩
  obtain ⟨before, after, parts⟩ := query.parts_around_filter isFiltered
  -- The word and the filter are two parts, so they are joined first to vary as one.
  obtain ⟨opening, closing, around⟩ := Text.intercalate_around " " before after
  refine ⟨opening, closing, ?_⟩
  intro dialect slot
  have joined : query.spell dialect slot =
      " ".intercalate (before ++ "where" :: condition.spellIn slot dialect :: after) := by
    simp [spell, chosen, parts, filterParts, filter]
  rw [joined, Text.intercalate_merge, around]
  simp [String.append_assoc]

/-- Around a group that is the filter, one pair of parentheses makes the whole difference. -/
theorem spell_around_group {connective : Connective} {members : List Condition}
    (filtered : query.WritesFilter) (filter : query.filter = some (.group connective members))
    (slot : Term → String) :
    ∃ opening closing,
      query.spell .standard slot =
        opening ++ "where (" ++ Condition.spellIn slot .cql (.group connective members) ++ ")" ++
          closing ∧
      query.spell .cql slot =
        opening ++ "where " ++ Condition.spellIn slot .cql (.group connective members) ++
          closing := by
  obtain ⟨opening, closing, around⟩ := spell_around_filter filtered filter
  refine ⟨opening, closing, ?_, around .cql slot⟩
  have word : "where (" = "where " ++ "(" := rfl
  rw [around, Condition.spellIn_standard, Condition.spell_group_eq_parenthesized, word]
  simp only [String.append_assoc]

/-- Without a group for a filter nothing in a statement depends on the dialect. -/
theorem spell_eq_of_not_filtersByGroup (noGroup : ¬ query.FiltersByGroup) (slot : Term → String) :
    query.spell .standard slot = query.spell .cql slot := by
  unfold spell
  cases chosen : query.operation with
  | none => rfl
  | some operation =>
    by_cases insertion : operation = .insert
    · rw [insertion]
      rfl
    · have filtered : operation = .select ∨ operation = .delete := by
        cases operation with
        | select => exact .inl rfl
        | insert => exact absurd rfl insertion
        | delete => exact .inr rfl
      have sameFilter : query.filterParts .standard slot = query.filterParts .cql slot := by
        unfold filterParts
        cases filter : query.filter with
        | none => rfl
        | some condition =>
          rcases Condition.spellIn_cases .cql condition with whole | ⟨connective, members, -, rfl⟩
          · simp only [Condition.spellIn_standard, whole]
          · refine absurd ⟨?_, connective, members, filter⟩ noGroup
            rcases filtered with rfl | rfl
            · exact .inl chosen
            · exact .inr chosen
      obtain ⟨before, after, parts⟩ := query.parts_around_filter filtered
      simp only [parts, sameFilter]

end Query

namespace Dialect

variable {condition : Condition} {whole : Fragment}

theorem filter_cql_of_not_isGroup (written : standard.style.filter condition = .ok whole)
    (single : condition.isGroup = false) : cql.style.filter condition = .ok whole := by
  obtain ⟨wellFormed, rfl⟩ := filter_eq_ok_iff.mp written
  refine filter_eq_ok_iff.mpr ⟨wellFormed, ?_⟩
  rw [Condition.spellIn_of_not_isGroup single, Condition.spellIn_of_not_isGroup single]

theorem filter_cql_of_isGroup (written : standard.style.filter condition = .ok whole)
    (isGroup : condition.isGroup = true) :
    ∃ inner, cql.style.filter condition = .ok inner ∧ inner.text ≠ "" ∧
      whole = inner.parenthesized := by
  obtain ⟨wellFormed, rfl⟩ := filter_eq_ok_iff.mp written
  refine ⟨_, filter_eq_ok_iff.mpr ⟨wellFormed, rfl⟩,
    Condition.spellIn_ne_empty Term.slotText .cql wellFormed, ?_⟩
  cases condition with
  | compare comparator column right => cases isGroup
  | negation negated => cases isGroup
  | group connective members => rfl

end Dialect

/-- CQL leaves out one pair of parentheses and changes nothing else. Both dialects refuse the same
queries with the same error and bind the same data; the texts are the same, but for the pair
around a filter that is a group, where only the pairs of the members are kept. -/
theorem Dialect.cql_drops_one_pair (query : Query) :
    (∀ error, (Dialect.standard.style.write query).value = .error error ↔
      (Dialect.cql.style.write query).value = .error error) ∧
    (∀ whole, (Dialect.standard.style.write query).value = .ok whole →
      ∃ bare, (Dialect.cql.style.write query).value = .ok bare ∧ whole.binds = bare.binds ∧
        (¬ query.FiltersByGroup → whole.text = bare.text) ∧
        ∀ connective members, query.WritesFilter →
          query.filter = some (.group connective members) →
          ∃ opening inner closing fragments,
            List.Forall₂ (fun member fragment => member.render = .ok fragment) members fragments ∧
            inner = (" " ++ connective.word ++ " ").intercalate (fragments.map Fragment.text) ∧
            inner ≠ "" ∧
            whole.text = opening ++ "where (" ++ inner ++ ")" ++ closing ∧
            bare.text = opening ++ "where " ++ inner ++ closing) ∧
    ∀ condition,
      (∀ error, Dialect.standard.style.filter condition = .error error ↔
        Dialect.cql.style.filter condition = .error error) ∧
      ∀ whole, Dialect.standard.style.filter condition = .ok whole →
        (condition.isGroup = false → Dialect.cql.style.filter condition = .ok whole) ∧
        (condition.isGroup = true → ∃ inner, Dialect.cql.style.filter condition = .ok inner ∧
          inner.text ≠ "" ∧ whole = inner.parenthesized) := by
  refine ⟨?_, ?_, ?_⟩
  · intro error
    rw [write_eq_error_iff, write_eq_error_iff]
  · intro whole written
    obtain ⟨noError, rfl⟩ := write_eq_ok_iff.mp written
    refine ⟨⟨query.spell .cql Term.slotText, query.data⟩, write_eq_ok_iff.mpr ⟨noError, rfl⟩, rfl,
      ?_, ?_⟩
    · intro noGroup
      exact Query.spell_eq_of_not_filtersByGroup noGroup Term.slotText
    · intro connective members filtered filter
      have wellFormed : Condition.WellFormed (.group connective members) := by
        have noFault := Query.filterFaults_of_error?_eq_none noError filtered
        rwa [Query.filterFaults, filter] at noFault
      obtain ⟨opening, closing, wholeText, bareText⟩ :=
        Query.spell_around_group filtered filter Term.slotText
      refine ⟨opening, Condition.spellIn Term.slotText .cql (.group connective members), closing,
        members.map Condition.spelling, Condition.forall₂_render_spelling wellFormed, ?_,
        Condition.spellIn_ne_empty Term.slotText .cql wellFormed, wholeText, bareText⟩
      rw [Condition.spellIn_cql_group, Condition.spellAll_eq_map, List.map_map]
      rfl
  · intro condition
    constructor
    · intro error
      rw [filter_eq_error_iff, filter_eq_error_iff]
    · intro whole written
      exact ⟨filter_cql_of_not_isGroup written, filter_cql_of_isGroup written⟩

/-- A selection by a group of groups, whose columns hold parentheses that do not match. -/
def Query.bracketed : Query where
  operation := some .select
  table := some "fruit"
  filter := some (.any [.all [.eq "(a" (.bind (.int 1))], .negation (.all [.eq "b)" (.raw "c")])])
  limit := some (.count 3)

theorem Dialect.cql_drops_one_pair_bracketed :
    (Dialect.standard.style.write .bracketed).value =
        .ok ⟨"select * from fruit where (((a = ?) or not (b) = c)) limit 3", [.int 1]⟩ ∧
      Query.bracketed.FiltersByGroup ∧
      (∃ bare, (Dialect.cql.style.write .bracketed).value = .ok bare ∧ bare.binds = [.int 1] ∧
        ∃ opening inner closing, bare.text = opening ++ "where " ++ inner ++ closing ∧
          inner = "((a = ?) or not (b) = c)") ∧
      Dialect.cql.style.filter (.eq "(a" (.raw "b)")) = .ok ⟨"(a = b)", []⟩ := by
  obtain ⟨-, statements, conditions⟩ := Dialect.cql_drops_one_pair .bracketed
  have written : (Dialect.standard.style.write .bracketed).value =
      .ok ⟨"select * from fruit where (((a = ?) or not (b) = c)) limit 3", [.int 1]⟩ := rfl
  obtain ⟨bare, bareWritten, binds, -, groups⟩ := statements _ written
  obtain ⟨opening, inner, closing, fragments, rendered, innerText, -, -, bareText⟩ :=
    groups .any _ (.inl rfl) rfl
  refine ⟨written, ⟨.inl rfl, _, _, rfl⟩, ⟨bare, bareWritten, binds.symm, opening, inner, closing,
    bareText, ?_⟩, ?_⟩
  · cases rendered with
    | cons first others =>
      cases others with
      | cons second rest =>
        cases rest
        cases first
        cases second
        exact innerText
  · obtain ⟨-, comparisons⟩ := conditions (.eq "(a" (.raw "b)"))
    obtain ⟨single, -⟩ := comparisons ⟨"(a = b)", []⟩ rfl
    exact single rfl

end BoundQuery
