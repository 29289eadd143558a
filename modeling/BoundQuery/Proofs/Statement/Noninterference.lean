import BoundQuery.Proofs.Condition.Correspondence
import BoundQuery.Proofs.Statement.Layout

/-!
# Noninterference

A datum has no influence on a statement but for the place it takes in the list of data. Two
queries that agree up to their data are both refused with one error, or both written as one text,
and the notices are the same. This is said of two queries and compares no text with a datum.
-/

set_option autoImplicit false

namespace BoundQuery

namespace Term

/-- Every term but a verbatim one binds a datum of its own. -/
theorem filterMap_bound?_map_some (terms : List Term) :
    (terms.filterMap bound?).map some = (terms.filter fun term => !term.isRaw).map bound? := by
  induction terms with
  | nil => rfl
  | cons term rest ih =>
    cases verbatim : term.isRaw with
    | true =>
      have noDatum := bound?_eq_none_iff.mpr verbatim
      rw [List.filterMap_cons_none noDatum, List.filter_cons_of_neg (by simp [verbatim]), ih]
    | false =>
      have isBound : term.bound? ≠ none := by simp [bound?_eq_none_iff, verbatim]
      obtain ⟨datum, bound⟩ := Option.ne_none_iff_exists'.mp isBound
      rw [List.filterMap_cons_some bound, List.filter_cons_of_pos (by simp [verbatim]),
        List.map_cons, List.map_cons, ih, bound]

theorem length_bound_eq {lefts rights : List Term} (alike : List.Forall₂ Alike lefts rights) :
    (lefts.filter fun term => !term.isRaw).length =
      (rights.filter fun term => !term.isRaw).length := by
  induction alike with
  | nil => rfl
  | @cons left right _ _ first _ ih =>
    cases verbatim : left.isRaw with
    | true => simpa [verbatim, ← first.isRaw_eq] using ih
    | false => simpa [verbatim, ← first.isRaw_eq] using ih

end Term

namespace Style

variable {lefts rights : List Term}

theorem writtenValues_slotText_eq (alike : List.Forall₂ Term.Alike lefts rights) :
    (writtenValues lefts).map Term.slotText = (writtenValues rights).map Term.slotText := by
  induction alike with
  | nil => rfl
  | @cons left right _ _ first _ ih =>
    unfold writtenValues at ih ⊢
    cases blank : left.isBlankRaw with
    | true => simpa [blank, ← first.isBlankRaw_eq] using ih
    | false => simpa [blank, ← first.isBlankRaw_eq, first.slotText_eq] using ih

theorem skippedSlots_eq (alike : List.Forall₂ Term.Alike lefts rights) (index : Nat) :
    skippedSlots index lefts = skippedSlots index rights := by
  induction alike generalizing index with
  | nil => rfl
  | @cons left right _ _ first _ ih =>
    have rest := ih (index + 1)
    unfold skippedSlots at rest ⊢
    cases blank : left.isBlankRaw with
    | true => simpa [blank, ← first.isBlankRaw_eq] using rest
    | false => simpa [blank, ← first.isBlankRaw_eq] using rest

end Style

def Condition.Alike : Condition → Condition → Prop :=
  Condition.Corresponds Term.Alike fun _ left right => left = right

namespace Query

/-- The same query up to the data that its terms bind. -/
structure Alike (left right : Query) : Prop where
  operation : left.operation = right.operation
  table : left.table = right.table
  columns : left.columns = right.columns
  values : List.Forall₂ Term.Alike left.values right.values
  filter : Option.Rel Condition.Alike left.filter right.filter
  limit : left.limit = right.limit
  offset : left.offset = right.offset
  order : left.order = right.order

def boundTerms (query : Query) : List Term :=
  query.terms.filter fun term => !term.isRaw

theorem data_map_some (query : Query) : query.data.map some = query.boundTerms.map Term.bound? :=
  Term.filterMap_bound?_map_some query.terms

namespace Alike

variable {left right : Query}

theorem filter_cases (alike : left.Alike right) :
    (left.filter = none ∧ right.filter = none) ∨
      ∃ condition condition', left.filter = some condition ∧ right.filter = some condition' ∧
        condition.Alike condition' := by
  have filters := alike.filter
  generalize left.filter = leftFilter, right.filter = rightFilter at filters ⊢
  cases filters with
  | none => exact .inl ⟨rfl, rfl⟩
  | some conditions => exact .inr ⟨_, _, rfl, rfl, conditions⟩

theorem filterFaults_eq (alike : left.Alike right) : left.filterFaults = right.filterFaults := by
  unfold filterFaults
  rcases alike.filter_cases with ⟨noLeft, noRight⟩ | ⟨_, _, here, there, conditions⟩
  · rw [noLeft, noRight]
  · rw [here, there]
    exact conditions.faults_eq (fun _ _ slots => slots.isBlankRaw_eq) fun _ _ same => same

theorem filterParts_eq (alike : left.Alike right) (dialect : Dialect) :
    left.filterParts dialect Term.slotText = right.filterParts dialect Term.slotText := by
  unfold filterParts
  rcases alike.filter_cases with ⟨noLeft, noRight⟩ | ⟨_, _, here, there, conditions⟩
  · rw [noLeft, noRight]
  · rw [here, there]
    have texts := conditions.spellIn_eq (fun _ _ slots => slots.slotText_eq)
      (fun _ _ _ same _ => same) dialect
    exact congrArg (["where", ·]) texts

theorem filterTerms_forall₂ (alike : left.Alike right) :
    List.Forall₂ Term.Alike left.filterTerms right.filterTerms := by
  unfold filterTerms
  rcases alike.filter_cases with ⟨noLeft, noRight⟩ | ⟨_, _, here, there, conditions⟩
  · rw [noLeft, noRight]
    exact .nil
  · rw [here, there]
    exact conditions.terms_forall₂

theorem terms_forall₂ (alike : left.Alike right) :
    List.Forall₂ Term.Alike left.terms right.terms := by
  unfold terms
  rw [alike.operation]
  split
  · exact .nil
  · exact alike.values
  · exact alike.filterTerms_forall₂

theorem slotParts_eq (alike : left.Alike right) :
    left.slotParts Term.slotText = right.slotParts Term.slotText := by
  have texts := Style.writtenValues_slotText_eq alike.values
  unfold slotParts
  generalize Style.writtenValues left.values = leftSlots,
    Style.writtenValues right.values = rightSlots at texts ⊢
  cases leftSlots with
  | nil =>
    have noSlots : rightSlots = [] := List.map_eq_nil_iff.mp texts.symm
    rw [noSlots]
  | cons first rest =>
    cases rightSlots with
    | nil => simp at texts
    | cons first' rest' => simp only [texts]

theorem hasTable_eq (alike : left.Alike right) : left.hasTable = right.hasTable := by
  rw [hasTable, hasTable, alike.table]

theorem error?_eq (alike : left.Alike right) : left.error? = right.error? := by
  unfold error?
  rw [alike.operation, alike.hasTable_eq, alike.filterFaults_eq]

theorem spell_eq (alike : left.Alike right) (dialect : Dialect) :
    left.spell dialect Term.slotText = right.spell dialect Term.slotText := by
  have filter := alike.filterParts_eq dialect
  unfold spell
  rw [alike.operation]
  cases right.operation with
  | none => rfl
  | some operation =>
    cases operation with
    | select =>
      simp only [parts, selectionText, orderParts, limitParts, offsetParts, alike.table,
        alike.columns, alike.order, alike.limit, alike.offset, filter]
    | insert => simp only [parts, alike.table, alike.columns, alike.slotParts_eq]
    | delete => simp only [parts, alike.table, filter]

theorem notices_eq (alike : left.Alike right) (dialect : Dialect) :
    left.notices dialect = right.notices dialect := by
  unfold notices
  rw [alike.operation, alike.hasTable_eq, Style.skippedSlots_eq alike.values]

theorem length_data_eq (alike : left.Alike right) : left.data.length = right.data.length := by
  have terms := Term.length_bound_eq alike.terms_forall₂
  have leftLength := congrArg List.length left.data_map_some
  have rightLength := congrArg List.length right.data_map_some
  rw [List.length_map, List.length_map] at leftLength rightLength
  rw [leftLength, rightLength]
  exact terms

end Alike

end Query

/-- Data never influence a statement: alike queries are refused with the same error or written as
the same text with equally many data, each query with exactly the data of its own bound terms in
their order, and the notices are the same. -/
theorem Dialect.write_alike {left right : Query} (alike : left.Alike right) (dialect : Dialect) :
    (dialect.style.write left).log = (dialect.style.write right).log ∧
      ((∃ error, (dialect.style.write left).value = .error error ∧
          (dialect.style.write right).value = .error error) ∨
        ∃ text leftBinds rightBinds,
          (dialect.style.write left).value = .ok ⟨text, leftBinds⟩ ∧
          (dialect.style.write right).value = .ok ⟨text, rightBinds⟩ ∧
          leftBinds.length = rightBinds.length ∧
          leftBinds.map some = left.boundTerms.map Term.bound? ∧
          rightBinds.map some = right.boundTerms.map Term.bound?) := by
  constructor
  · rw [log_write, log_write, alike.notices_eq]
  · rw [value_write, value_write, alike.error?_eq, alike.spell_eq]
    cases right.error? with
    | some error => exact .inl ⟨error, rfl, rfl⟩
    | none =>
      refine .inr ⟨right.spell dialect Term.slotText, left.data, right.data, rfl, rfl, ?_⟩
      exact ⟨alike.length_data_eq, left.data_map_some, right.data_map_some⟩

def Query.searchFor (first second : Term) : Query where
  operation := some .select
  table := some "fruit"
  filter := some (.any [.eq "name" first, .negation (.all [.lt "sold" (.raw "now()"),
    .ne "name" second])])
  values := [first, .raw " ", second]

/-- A datum that looks like the end of a statement changes no more than any other. -/
theorem Dialect.write_alike_searchFor :
    (Query.searchFor (.literal (.text "%@")) (.bind .null)).Alike
        (.searchFor (.bind (.text "' or 1 = 1 --")) (.literal (.text ")"))) ∧
      (Dialect.cql.style.write (.searchFor (.literal (.text "%@")) (.bind .null))).value =
        .ok ⟨"select * from fruit where name = ? or not (sold < now() and name != ?)",
          [.text "?", .null]⟩ ∧
      ∃ binds, binds.length = 2 ∧
        (Dialect.cql.style.write (.searchFor (.bind (.text "' or 1 = 1 --"))
          (.literal (.text ")")))).value =
        .ok ⟨"select * from fruit where name = ? or not (sold < now() and name != ?)", binds⟩ := by
  have alike : (Query.searchFor (.literal (.text "%@")) (.bind .null)).Alike
      (.searchFor (.bind (.text "' or 1 = 1 --")) (.literal (.text ")"))) :=
    { operation := rfl
      table := rfl
      columns := rfl
      values := .cons (.bound rfl rfl) (.cons .raw (.cons (.bound rfl rfl) .nil))
      filter := .some (.group rfl (.cons (.compare (.bound rfl rfl)) (.cons
        (.negation (.group rfl (.cons (.compare .raw) (.cons (.compare (.bound rfl rfl)) .nil))))
        .nil)))
      limit := rfl
      offset := rfl
      order := rfl }
  have written :
      (Dialect.cql.style.write (.searchFor (.literal (.text "%@")) (.bind .null))).value =
        .ok ⟨"select * from fruit where name = ? or not (sold < now() and name != ?)",
          [.text "?", .null]⟩ := rfl
  refine ⟨alike, written, ?_⟩
  obtain ⟨-, ⟨error, refused, -⟩ | ⟨text, leftBinds, rightBinds, left, right, length, -⟩⟩ :=
    Dialect.write_alike alike .cql
  · rw [written] at refused
    cases refused
  · rw [written] at left
    cases left
    exact ⟨rightBinds, length.symm, right⟩

end BoundQuery
