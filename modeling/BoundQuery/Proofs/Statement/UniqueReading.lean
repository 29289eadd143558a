import BoundQuery.Proofs.Statement.Phrases
import Mathlib.Data.Option.Basic

/-!
# Unique reading of statements

A statement can be read in one way only. Where all names are words and none of them is reserved,
its text determines the operation and every part that the operation writes, those that are absent
too. This holds within each dialect, also in CQL, where a filter has no parentheses to end it.
-/

set_option autoImplicit false

namespace BoundQuery

namespace Query

variable {left right : Query}

section SameText

variable {dialect : Dialect} {operation operation' : Operation}
  (leftWords : left.InWords) (rightWords : right.InWords)
  (leftNamed : left.hasTable = true) (rightNamed : right.hasTable = true)

include leftWords rightWords leftNamed rightNamed

theorem operation_eq_of_text_eq
    (same : " ".intercalate (left.parts dialect Term.slotText operation) =
      " ".intercalate (right.parts dialect Term.slotText operation')) :
    operation = operation' := by
  have chunks := congrArg Text.chunks same
  rw [chunks_parts dialect leftWords leftNamed, chunks_parts dialect rightWords rightNamed]
    at chunks
  have heads := congrArg List.head? chunks
  rw [head?_layOut_phrases, head?_layOut_phrases] at heads
  exact Operation.word_injective (Option.some.inj heads)

theorem phrases_eq_of_text_eq
    (same : " ".intercalate (left.parts dialect Term.slotText operation) =
      " ".intercalate (right.parts dialect Term.slotText operation)) :
    left.phrases dialect operation = right.phrases dialect operation := by
  have chunks := congrArg Text.chunks same
  rw [chunks_parts dialect leftWords leftNamed, chunks_parts dialect rightWords rightNamed]
    at chunks
  have openings := words_phrases dialect left operation
  refine Phrase.layOut_inj ?_ ?_ ?_ (avoids_phrases dialect leftWords leftNamed operation)
    (avoids_phrases dialect rightWords rightNamed operation) chunks
  · rw [openings, words_phrases]
  · rw [openings]
    cases operation <;> decide
  · rw [openings]
    cases operation <;> decide

end SameText

section Parts

variable {dialect : Dialect}

theorem table_eq_of_getD_eq (leftNamed : left.hasTable = true) (rightNamed : right.hasTable = true)
    (same : left.table.getD "" = right.table.getD "") : left.table = right.table := by
  rw [table_eq_some_getD leftNamed, table_eq_some_getD rightNamed, same]

/-- The item for all columns is not a word, so it is not mistaken for a column. -/
theorem columns_eq_of_selectionItems_eq (leftWords : left.InWords) (rightWords : right.InWords)
    (same : left.selectionItems = right.selectionItems) : left.columns = right.columns := by
  have noWord : ¬ IsWord reservedWords "*" := by decide
  have notAll {query : Query} (words : query.InWords) : query.columns ≠ ["*"] := by
    intro all
    exact noWord (words.columns "*" (by rw [all]; exact List.mem_cons_self))
  unfold selectionItems at same
  split at same
  · rename_i leftAll
    split at same
    · rename_i rightAll
      rw [leftAll, rightAll]
    · exact absurd same.symm (notAll rightWords)
  · split at same
    · exact absurd same (notAll leftWords)
    · exact same

theorem order_eq_of_body_eq
    (same : (if left.order = [] then none else some ("by" :: Text.listed left.order)) =
      if right.order = [] then none else some ("by" :: Text.listed right.order)) :
    left.order = right.order := by
  split at same
  · rename_i leftNone
    split at same
    · rename_i rightNone
      rw [leftNone, rightNone]
    · cases same
  · split at same
    · cases same
    · obtain ⟨-, columns⟩ := List.cons.inj (Option.some.inj same)
      exact Text.listed_inj columns

theorem offset_eq_of_body_eq
    (same : left.offset.map (fun count => [toString count.toNat]) =
      right.offset.map fun count => [toString count.toNat]) : left.offset = right.offset := by
  refine (Option.map_inj_right ?_).mp same
  intro count count' digits
  obtain ⟨texts, -⟩ := List.cons.inj digits
  exact UInt64.toNat_inj.mp (number_eq_of_toString_eq texts)

theorem limit_text_eq_of_body_eq
    (same : left.limit.map (fun limit => [limit.text]) =
      right.limit.map fun limit => [limit.text]) :
    left.limit.map Limit.text = right.limit.map Limit.text := by
  have texts := congrArg (Option.map List.head?) same
  rw [Option.map_map, Option.map_map] at texts
  refine (Option.map_inj_right fun text text' heads => Option.some.inj heads).mp ?_
  rw [Option.map_map, Option.map_map]
  exact texts

/-- Both queries write a filter and write it as the same text, or neither has any. -/
def SameFilterText (dialect : Dialect) (left right : Query) : Prop :=
  Option.Rel (fun condition condition' => ∃ text binds binds',
    dialect.style.filter condition = .ok ⟨text, binds⟩ ∧
      dialect.style.filter condition' = .ok ⟨text, binds'⟩) left.filter right.filter

theorem sameFilterText_of_filterPhrase_eq (leftFaultless : left.filterFaults = [])
    (rightFaultless : right.filterFaults = [])
    (same : left.filterPhrase dialect = right.filterPhrase dialect) :
    SameFilterText dialect left right := by
  have bodies := congrArg Phrase.body same
  unfold SameFilterText
  unfold filterFaults at leftFaultless rightFaultless
  unfold filterPhrase at bodies
  cases leftFilter : left.filter with
  | none =>
    rw [leftFilter] at bodies
    have noRight : right.filter = none := by simpa using bodies.symm
    rw [noRight]
    exact .none
  | some condition =>
    cases rightFilter : right.filter with
    | none =>
      rw [leftFilter, rightFilter] at bodies
      cases bodies
    | some condition' =>
      rw [leftFilter, rightFilter] at bodies
      rw [leftFilter] at leftFaultless
      rw [rightFilter] at rightFaultless
      have texts := Text.chunks_inj (Option.some.inj bodies)
      refine .some ⟨condition.spellIn Term.slotText dialect, condition.data, condition'.data,
        Dialect.filter_eq_ok_iff.mpr ⟨leftFaultless, rfl⟩, ?_⟩
      rw [texts]
      exact Dialect.filter_eq_ok_iff.mpr ⟨rightFaultless, rfl⟩

end Parts

section SamePhrases

variable {dialect : Dialect} (leftNamed : left.hasTable = true) (rightNamed : right.hasTable = true)

include leftNamed rightNamed

theorem selection_eq_of_phrases_eq (leftWords : left.InWords) (rightWords : right.InWords)
    (leftFaultless : left.filterFaults = []) (rightFaultless : right.filterFaults = [])
    (same : left.phrases dialect .select = right.phrases dialect .select) :
    left.table = right.table ∧ left.columns = right.columns ∧ SameFilterText dialect left right ∧
      left.order = right.order ∧ left.limit.map Limit.text = right.limit.map Limit.text ∧
      left.offset = right.offset := by
  simp only [phrases, List.cons.injEq, Phrase.mk.injEq, Option.some.injEq, true_and, and_true]
    at same
  obtain ⟨selection, table, filter, order, limit, offset⟩ := same
  have items := Text.listed_inj selection
  exact ⟨table_eq_of_getD_eq leftNamed rightNamed table,
    columns_eq_of_selectionItems_eq leftWords rightWords items,
    sameFilterText_of_filterPhrase_eq leftFaultless rightFaultless filter,
    order_eq_of_body_eq order, limit_text_eq_of_body_eq limit, offset_eq_of_body_eq offset⟩

theorem insertion_eq_of_phrases_eq
    (same : left.phrases dialect .insert = right.phrases dialect .insert) :
    left.table = right.table ∧ left.columns = right.columns ∧
      (Style.slotsFrom 0 left.values).value.map Fragment.text =
        (Style.slotsFrom 0 right.values).value.map Fragment.text := by
  simp only [phrases, List.cons.injEq, Phrase.mk.injEq, Option.some.injEq, true_and, and_true,
    List.append_left_inj] at same
  obtain ⟨⟨table, columns⟩, slots⟩ := same
  refine ⟨table_eq_of_getD_eq leftNamed rightNamed table, Text.listed_inj columns, ?_⟩
  rw [Style.value_slotsFrom, Style.value_slotsFrom, List.map_map, List.map_map]
  exact Text.listed_inj slots

theorem deletion_eq_of_phrases_eq
    (leftFaultless : left.filterFaults = []) (rightFaultless : right.filterFaults = [])
    (same : left.phrases dialect .delete = right.phrases dialect .delete) :
    left.table = right.table ∧ SameFilterText dialect left right := by
  simp only [phrases, List.cons.injEq, Phrase.mk.injEq, Option.some.injEq, true_and, and_true]
    at same
  obtain ⟨table, filter⟩ := same
  exact ⟨table_eq_of_getD_eq leftNamed rightNamed table,
    sameFilterText_of_filterPhrase_eq leftFaultless rightFaultless filter⟩

end SamePhrases

end Query

/-- The text of a statement has one reading: two queries that a dialect writes alike have the same
operation and the same table, and agree in everything else that the operation writes, be it
present or absent. Of values and filters only the text is meant, and of a limit how it is
written. -/
theorem Dialect.write_reads_uniquely {dialect : Dialect} {left right : Query}
    {leftStatement rightStatement : Statement}
    (leftWritten : (dialect.style.write left).value = .ok leftStatement)
    (rightWritten : (dialect.style.write right).value = .ok rightStatement)
    (leftWords : left.InWords) (rightWords : right.InWords)
    (same : leftStatement.text = rightStatement.text) :
    left.operation = right.operation ∧ left.table = right.table ∧
      (left.operation = some .select →
        left.columns = right.columns ∧ Query.SameFilterText dialect left right ∧
          left.order = right.order ∧ left.limit.map Limit.text = right.limit.map Limit.text ∧
          left.offset = right.offset) ∧
      (left.operation = some .insert →
        left.columns = right.columns ∧
          (Style.slotsFrom 0 left.values).value.map Fragment.text =
            (Style.slotsFrom 0 right.values).value.map Fragment.text) ∧
      (left.operation = some .delete → Query.SameFilterText dialect left right) := by
  obtain ⟨leftError, rfl⟩ := write_eq_ok_iff.mp leftWritten
  obtain ⟨rightError, rfl⟩ := write_eq_ok_iff.mp rightWritten
  have leftNamed := Query.hasTable_of_error?_eq_none leftError
  have rightNamed := Query.hasTable_of_error?_eq_none rightError
  obtain ⟨operation, leftChosen⟩ := Query.operation_of_error?_eq_none leftError
  obtain ⟨operation', rightChosen⟩ := Query.operation_of_error?_eq_none rightError
  have texts : " ".intercalate (left.parts dialect Term.slotText operation) =
      " ".intercalate (right.parts dialect Term.slotText operation') := by
    simpa only [Query.spell, leftChosen, rightChosen] using same
  obtain rfl := Query.operation_eq_of_text_eq leftWords rightWords leftNamed rightNamed texts
  have phrases := Query.phrases_eq_of_text_eq leftWords rightWords leftNamed rightNamed texts
  rw [leftChosen, rightChosen]
  refine ⟨rfl, ?_⟩
  cases operation with
  | select =>
    have leftFaultless := Query.filterFaults_of_error?_eq_none leftError (.inl leftChosen)
    have rightFaultless := Query.filterFaults_of_error?_eq_none rightError (.inl rightChosen)
    obtain ⟨table, selection⟩ := Query.selection_eq_of_phrases_eq leftNamed rightNamed leftWords
      rightWords leftFaultless rightFaultless phrases
    exact ⟨table, fun _ => selection, by rintro ⟨⟩, by rintro ⟨⟩⟩
  | insert =>
    obtain ⟨table, insertion⟩ := Query.insertion_eq_of_phrases_eq leftNamed rightNamed phrases
    exact ⟨table, by rintro ⟨⟩, fun _ => insertion, by rintro ⟨⟩⟩
  | delete =>
    have leftFaultless := Query.filterFaults_of_error?_eq_none leftError (.inr leftChosen)
    have rightFaultless := Query.filterFaults_of_error?_eq_none rightError (.inr rightChosen)
    obtain ⟨table, filter⟩ := Query.deletion_eq_of_phrases_eq leftNamed rightNamed leftFaultless
      rightFaultless phrases
    exact ⟨table, by rintro ⟨⟩, by rintro ⟨⟩, fun _ => filter⟩

/-- Some rows of a table in order, with the filter and the limit left open. -/
def Query.firstRows (filter : Condition) (limit : Limit) : Query where
  operation := some .select
  table := some "fruit"
  columns := ["name", "size"]
  filter := some filter
  limit := some limit
  offset := some 10
  order := ["sold"]

def Query.fewRows : Query :=
  .firstRows (.any [.eq "size" (.bind (.int 3))]) (.count 5)

def Query.fewRowsVerbatim : Query :=
  .firstRows (.eq "size" (.literal .null)) (.placeholder "5")

/-- In CQL a comparison is written like a group around it, and a number like the text of it. -/
theorem Dialect.write_reads_uniquely_fewRows :
    (Dialect.cql.style.write .fewRows).value =
        .ok ⟨"select name, size from fruit where size = ? order by sold limit 5 offset 10",
          [.int 3]⟩ ∧
      (Dialect.cql.style.write .fewRowsVerbatim).value =
        .ok ⟨"select name, size from fruit where size = ? order by sold limit 5 offset 10",
          [.null]⟩ ∧
      Query.fewRows.InWords ∧ Query.fewRowsVerbatim.InWords ∧
      Query.SameFilterText .cql .fewRows .fewRowsVerbatim ∧
      Query.fewRows.limit.map Limit.text = Query.fewRowsVerbatim.limit.map Limit.text := by
  have text : Query.fewRows.spell .cql Term.slotText =
      "select name, size from fruit where size = ? order by sold limit 5 offset 10" := by
    decide +kernel
  have verbatimText : Query.fewRowsVerbatim.spell .cql Term.slotText =
      "select name, size from fruit where size = ? order by sold limit 5 offset 10" := by
    decide +kernel
  have written := Dialect.write_eq_ok_iff.mpr
    ⟨(rfl : Query.fewRows.error? = none), congrArg (Fragment.mk · [.int 3]) text.symm⟩
  have verbatimWritten := Dialect.write_eq_ok_iff.mpr
    ⟨(rfl : Query.fewRowsVerbatim.error? = none),
      congrArg (Fragment.mk · [.null]) verbatimText.symm⟩
  have words : Query.fewRows.InWords := by decide
  have verbatimWords : Query.fewRowsVerbatim.InWords := by decide
  obtain ⟨-, -, selection, -⟩ :=
    Dialect.write_reads_uniquely written verbatimWritten words verbatimWords rfl
  obtain ⟨-, filters, -, limits, -⟩ := selection rfl
  exact ⟨written, verbatimWritten, words, verbatimWords, filters, limits⟩

end BoundQuery
