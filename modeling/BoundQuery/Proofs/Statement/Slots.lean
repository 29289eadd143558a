import BoundQuery.Proofs.Statement.Noninterference
import BoundQuery.Proofs.Statement.Refusal

/-!
# Slots of an insertion

A list of values is written as one slot for each value that is not blank verbatim text, and each
blank one is reported by its place in the list as it was given. So a list may be written in two
parts, if the places in the second are counted on from the first.
-/

set_option autoImplicit false

namespace BoundQuery

/-- A notice about a list that stands after `count` other values. -/
def Notice.shift (count : Nat) : Notice → Notice
  | .slotSkipped index => .slotSkipped (index + count)
  | notice => notice

namespace Style

/-- The places of the blank values in a list. -/
def blankPlaces (values : List Term) : List Nat :=
  values.findIdxs Term.isBlankRaw

/-- What a list of values is written as: slots that all have text, the data of the bound values in
order, and one warning for each blank value, with its place in the whole list. -/
structure WritesSlots (values : List Term) (written : Logged Fragment) : Prop where
  text : written.value.text = ", ".intercalate ((writtenValues values).map Term.slotText)
  slots : ∀ term ∈ writtenValues values, term.slotText ≠ ""
  binds : written.value.binds.map some = (values.filter fun term => !term.isRaw).map Term.bound?
  log : written.log = (blankPlaces values).map .slotSkipped
  increasing : (blankPlaces values).Pairwise (· < ·)
  places : ∀ index, index ∈ blankPlaces values ↔
    ∃ text, values[index]? = some (.raw text) ∧ Text.isBlank text = true
  warnings : ∀ notice ∈ written.log, notice.level = .warn
  count : (writtenValues values).length + written.log.length = values.length

variable {index : Nat} {values xs ys : List Term}

theorem skippedSlots_eq_findIdxs (index : Nat) (values : List Term) :
    skippedSlots index values = (values.findIdxs Term.isBlankRaw index).map .slotSkipped := by
  unfold skippedSlots
  induction values generalizing index with
  | nil => rfl
  | cons term rest ih =>
    rw [List.zipIdx_cons, List.findIdxs_cons]
    cases blank : term.isBlankRaw with
    | true => simp [blank, ih]
    | false => simp [blank, ih]

theorem log_listValues_eq_map (values : List Term) :
    (listValues values).log = (blankPlaces values).map .slotSkipped := by
  rw [log_listValues, skippedSlots_eq_findIdxs, blankPlaces]

theorem mem_blankPlaces_iff :
    index ∈ blankPlaces values ↔
      ∃ text, values[index]? = some (.raw text) ∧ Text.isBlank text = true := by
  rw [blankPlaces, List.mem_findIdxs_iff_exists_getElem_pos]
  constructor
  · rintro ⟨inside, blank⟩
    cases term : values[index] with
    | raw text =>
      rw [term] at blank
      exact ⟨text, by rw [List.getElem?_eq_getElem inside, term], blank⟩
    | literal datum | bind datum =>
      rw [term] at blank
      cases blank
  · rintro ⟨text, found, blank⟩
    obtain ⟨inside, term⟩ := List.getElem?_eq_some_iff.mp found
    exact ⟨inside, by rwa [term]⟩

/-- Every value leaves a slot or a warning, and none leaves both. -/
theorem length_writtenValues_add (values : List Term) :
    (writtenValues values).length + (blankPlaces values).length = values.length := by
  have split := List.length_eq_countP_add_countP Term.isBlankRaw (l := values)
  have written : (writtenValues values).length =
      values.countP fun term => decide ¬term.isBlankRaw = true := by
    rw [writtenValues, ← List.countP_eq_length_filter]
    simp
  have skipped : (blankPlaces values).length = values.countP Term.isBlankRaw :=
    List.length_findIdxs
  omega

theorem writesSlots_listValues (values : List Term) : WritesSlots values (listValues values) where
  text := by
    rw [value_listValues]
    rfl
  slots := fun _ => slotText_ne_empty_of_mem_writtenValues
  binds := by
    rw [value_listValues]
    exact Term.filterMap_bound?_map_some values
  log := log_listValues_eq_map values
  increasing := List.pairwise_findIdxs
  places := fun _ => mem_blankPlaces_iff
  warnings := by
    intro notice isLogged
    rw [log_listValues_eq_map] at isLogged
    obtain ⟨index, -, rfl⟩ := List.mem_map.mp isLogged
    rfl
  count := by
    rw [log_listValues_eq_map, List.length_map]
    exact length_writtenValues_add values

theorem writtenValues_writtenValues (values : List Term) :
    writtenValues (writtenValues values) = writtenValues values :=
  List.filter_eq_self.mpr fun _ written => (List.mem_filter.mp written).2

theorem blankPlaces_writtenValues (values : List Term) :
    blankPlaces (writtenValues values) = [] := by
  rw [blankPlaces, List.findIdxs_eq_nil_iff]
  intro term written
  simpa using (List.mem_filter.mp written).2

/-- Blank values may be taken out of a list beforehand; then there is nothing to report. -/
theorem listValues_writtenValues (values : List Term) :
    listValues (writtenValues values) = pure (listValues values).value := by
  apply Logged.ext
  · rw [Logged.value_pure, value_listValues, value_listValues, writtenValues_writtenValues,
      binds_writtenValues]
  · rw [Logged.log_pure, log_listValues_eq_map, blankPlaces_writtenValues, List.map_nil]

theorem binds_listValues_append (xs ys : List Term) :
    (listValues (xs ++ ys)).value.binds =
      (listValues xs).value.binds ++ (listValues ys).value.binds := by
  simp only [value_listValues, List.filterMap_append]

/-- Two lists of slots are joined like the slots of one, and a list without slots leaves no
separator behind. -/
theorem text_listValues_append (xs ys : List Term) :
    (listValues (xs ++ ys)).value.text =
      if (writtenValues xs).isEmpty || (writtenValues ys).isEmpty then
        (listValues xs).value.text ++ (listValues ys).value.text
      else (listValues xs).value.text ++ ", " ++ (listValues ys).value.text := by
  have slots : writtenValues (xs ++ ys) = writtenValues xs ++ writtenValues ys :=
    List.filter_append xs ys
  simp only [value_listValues, slots, List.map_append]
  cases writtenValues xs with
  | nil => simp
  | cons first rest =>
    cases writtenValues ys with
    | nil => simp
    | cons next others => exact String.intercalate_append_of_ne_nil (by simp) (by simp)

theorem log_listValues_append (xs ys : List Term) :
    (listValues (xs ++ ys)).log =
      (listValues xs).log ++ (listValues ys).log.map (Notice.shift xs.length) := by
  have places : blankPlaces (xs ++ ys) =
      blankPlaces xs ++ (blankPlaces ys).map (· + xs.length) := by
    have later : ys.findIdxs Term.isBlankRaw xs.length = (blankPlaces ys).map (· + xs.length) :=
      List.findIdxs_start
    rw [blankPlaces, List.findIdxs_append, Nat.zero_add, later]
    rfl
  simp only [log_listValues_eq_map, places, List.map_append, List.map_map]
  rfl

end Style

namespace Dialect

variable (dialect : Dialect) {query : Query}

theorem log_write_of_insert (chosen : query.operation = some .insert)
    (named : query.hasTable = true) :
    (dialect.style.write query).log =
      .writing .insert dialect.name :: (dialect.style.values query.values).log := by
  rw [log_write, Query.notices, chosen, style_values, Style.log_listValues]
  simp [named]

/-- Only an insertion that has a table looks at its values. -/
theorem log_write_of_not_insert (notInserted : ¬(query.operation = some .insert ∧ query.hasTable)) :
    ∀ notice ∈ (dialect.style.write query).log, notice.level = .debug := by
  rw [log_write, Query.notices]
  cases chosen : query.operation with
  | none => exact List.forall_mem_nil _
  | some operation =>
    have noSlots : ¬(operation = .insert ∧ query.hasTable) := by
      rintro ⟨rfl, named⟩
      exact notInserted ⟨chosen, named⟩
    simp only [if_neg noSlots]
    exact List.forall_mem_singleton.mpr rfl

theorem write_of_insert (chosen : query.operation = some .insert)
    (named : query.hasTable = true) :
    ∃ statement, (dialect.style.write query).value = .ok statement ∧
      statement.binds = (dialect.style.values query.values).value.binds := by
  refine ⟨_, write_eq_ok_iff.mpr ⟨Query.error?_of_insert named chosen, rfl⟩, ?_⟩
  rw [style_values, Style.value_listValues, Query.data, Query.terms, chosen]

end Dialect

/-- The values of an insertion, in either dialect. Each leaves a slot or a warning that tells its
place; the blank ones can be taken out beforehand; and a list can be written in two parts. Writing
an insertion into a table reports its beginning and then these warnings, and nothing else ever
gives a warning. -/
theorem Dialect.values_by_slots (dialect : Dialect) :
    (∀ values, Style.WritesSlots values (dialect.style.values values) ∧
      dialect.style.values (Style.writtenValues values) =
        pure (dialect.style.values values).value) ∧
    (∀ xs ys,
      (dialect.style.values (xs ++ ys)).value.binds =
        (dialect.style.values xs).value.binds ++ (dialect.style.values ys).value.binds ∧
      (dialect.style.values (xs ++ ys)).value.text =
        (if (Style.writtenValues xs).isEmpty || (Style.writtenValues ys).isEmpty then
          (dialect.style.values xs).value.text ++ (dialect.style.values ys).value.text
        else (dialect.style.values xs).value.text ++ ", " ++
          (dialect.style.values ys).value.text) ∧
      (dialect.style.values (xs ++ ys)).log =
        (dialect.style.values xs).log ++
          (dialect.style.values ys).log.map (Notice.shift xs.length)) ∧
    (∀ query : Query, query.operation = some .insert → query.hasTable = true →
      (dialect.style.write query).log =
        .writing .insert dialect.name :: (dialect.style.values query.values).log ∧
      ∃ statement, (dialect.style.write query).value = .ok statement ∧
        statement.binds = (dialect.style.values query.values).value.binds) ∧
    ∀ query : Query, ¬(query.operation = some .insert ∧ query.hasTable = true) →
      ∀ notice ∈ (dialect.style.write query).log, notice.level = .debug := by
  refine ⟨?lists, ?parts, ?insertions, ?others⟩
  case lists =>
    intro values
    rw [style_values, style_values]
    exact ⟨Style.writesSlots_listValues values, Style.listValues_writtenValues values⟩
  case parts =>
    intro xs ys
    simp only [style_values]
    exact ⟨Style.binds_listValues_append xs ys, Style.text_listValues_append xs ys,
      Style.log_listValues_append xs ys⟩
  case insertions =>
    intro query chosen named
    exact ⟨dialect.log_write_of_insert chosen named, dialect.write_of_insert chosen named⟩
  case others =>
    intro query notInserted
    exact dialect.log_write_of_not_insert notInserted

/-- An insertion with blank values at both ends and side by side. -/
def Query.gappy : Query where
  operation := some .insert
  table := some "t"
  values := [.raw "", .bind (.int 1), .raw " ", .raw "\u2003", .raw "now()",
    .literal (.text "%@"), .raw "\t"]

theorem Dialect.values_by_slots_gappy :
    Query.gappy.operation = some .insert ∧ Query.gappy.hasTable = true ∧
      (Dialect.cql.style.write .gappy).log =
        [.writing .insert "cql", .slotSkipped 0, .slotSkipped 2, .slotSkipped 3, .slotSkipped 6] ∧
      (Dialect.cql.style.write .gappy).value =
        .ok ⟨"insert into t ( ) values ( ?, now(), ? )", [.int 1, .text "?"]⟩ ∧
      (Dialect.cql.style.write { Query.gappy with operation := some .delete }).log.all
        (fun notice => notice.level == .debug) = true := by
  obtain ⟨-, -, insertions, others⟩ := Dialect.values_by_slots .cql
  obtain ⟨log, -⟩ := insertions .gappy rfl rfl
  have quiet := others { Query.gappy with operation := some .delete } (by decide)
  refine ⟨rfl, rfl, log.trans rfl, rfl, ?_⟩
  simpa using quiet

end BoundQuery
