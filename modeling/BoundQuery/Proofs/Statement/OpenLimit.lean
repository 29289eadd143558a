import BoundQuery.Proofs.Statement.Placeholders

/-!
# Open limits

A limit can be left open by writing a placeholder mark for it. Such a mark binds nothing, so the
statement has one mark more than it has data. It is the last of the marks, whatever stands before
and after the limit, and one more datum at the end of the others fills it.
-/

set_option autoImplicit false

namespace BoundQuery

namespace Query

def withoutLimit (query : Query) : Query :=
  { query with limit := none }

/-- A query with no bounds on the rows. -/
def unbounded (query : Query) : Query :=
  { query with limit := none, offset := none }

/-- What stands after the limit of a selection. -/
def offsetText (query : Query) : String :=
  query.offset.elim "" fun count => " offset " ++ toString count.toNat

variable {query : Query}

theorem not_mem_toList_offsetText (query : Query) : '?' ∉ query.offsetText.toList := by
  unfold offsetText
  cases query.offset with
  | none => simp
  | some count =>
    rw [Option.elim_some, String.toList_append, List.mem_append, not_or]
    exact ⟨by decide, (Text.isPlain_toString count.toNat).not_mem (by decide)⟩

/-- The limit of a selection stands after all that is written without bounds, and only the offset
comes after it. -/
theorem spell_of_limit (selects : query.operation = some .select) {limit : Limit}
    (limited : query.limit = some limit) (dialect : Dialect) (slot : Term → String) :
    query.spell dialect slot =
      query.unbounded.spell dialect slot ++ " limit " ++ limit.text ++ query.offsetText := by
  have selectsUnbounded : query.unbounded.operation = some .select := selects
  have ending : query.parts dialect slot .select =
      query.unbounded.parts dialect slot .select ++
        (("limit " ++ limit.text) :: query.offsetParts) := by
    have noLimit : query.unbounded.limitParts = [] := rfl
    have noOffset : query.unbounded.offsetParts = [] := rfl
    have limitPart : query.limitParts = ["limit " ++ limit.text] := by
      rw [limitParts, limited]
      rfl
    simp only [parts, noLimit, noOffset, limitPart, List.append_nil, List.append_assoc,
      List.singleton_append]
    rfl
  have front : query.unbounded.parts dialect slot .select ≠ [] := by
    simp [parts]
  have limitWord (text : String) : " " ++ ("limit " ++ text) = " limit " ++ text := by
    rw [← String.append_assoc]
    rfl
  have offsetWord (text : String) : " " ++ ("offset " ++ text) = " offset " ++ text := by
    rw [← String.append_assoc]
    rfl
  simp only [spell, selects, selectsUnbounded]
  rw [ending, String.intercalate_append_of_ne_nil front (by simp)]
  cases bound : query.offset with
  | none => simp [offsetParts, offsetText, bound, limitWord, String.append_assoc]
  | some count =>
    simp [offsetParts, offsetText, bound, limitWord, offsetWord, String.append_assoc]

/-- A selection with an open limit takes one value more than it has data, and takes it last. -/
theorem fills_spell_of_open (dialect : Dialect) (selects : query.operation = some .select)
    (opened : query.limit = some (.placeholder Term.placeholder))
    (unmarked : Unmarked query.withoutLimit.verbatim) (enc : Datum → String) (rows : String) :
    Fills (query.spell dialect Term.slotText) (query.data.map enc ++ [rows])
      ((query.withLimit (.placeholder rows)).direct dialect enc) := by
  have front := query.unbounded.fills_spell dialect unmarked enc
  have word : Fills " limit " [] " limit " := .unmarked (by decide)
  have ending : Fills query.offsetText [] query.offsetText :=
    .unmarked (not_mem_toList_offsetText query)
  have filled := ((front.append word).append (.placeholder rows)).append ending
  have limited : (query.withLimit (.placeholder rows)).direct dialect enc =
      query.unbounded.direct dialect enc ++ " limit " ++ rows ++ query.offsetText :=
    @spell_of_limit (query.withLimit (.placeholder rows)) selects (.placeholder rows) rfl dialect _
  rw [List.append_nil, List.append_nil] at filled
  rw [spell_of_limit selects opened, limited]
  exact filled

end Query

/-- The mark of an open limit is the last of its statement: what stands before it is the statement
without bounds on the rows, with all of the data, and at most an offset follows. One more datum at
the end of the data therefore fills the limit, and all others fill what they fill without it. -/
theorem Dialect.fill_open_limit {dialect : Dialect} {query : Query} {statement : Statement}
    (selects : query.operation = some .select)
    (opened : query.limit = some (.placeholder "?"))
    (unmarked : Unmarked query.withoutLimit.verbatim)
    (written : (dialect.style.write query).value = .ok statement) (enc : Datum → String)
    (rows : Datum) :
    statement.text.toList.count '?' = statement.binds.length + 1 ∧
      (∃ front ending, statement.text = front ++ " limit ?" ++ ending ∧ '?' ∉ ending.toList ∧
        (dialect.style.write query.unbounded).value = .ok ⟨front, statement.binds⟩) ∧
      fill statement.text ((statement.binds ++ [rows]).map enc) =
        (query.withLimit (.placeholder (enc rows))).direct dialect enc ∧
      ∃ text, (dialect.style.write query.withoutLimit).value = .ok ⟨text, statement.binds⟩ := by
  obtain ⟨noError, rfl⟩ := write_eq_ok_iff.mp written
  have fills := Query.fills_spell_of_open dialect selects opened unmarked enc (enc rows)
  refine ⟨?count, ⟨query.unbounded.spell dialect Term.slotText, query.offsetText, ?text,
    query.not_mem_toList_offsetText, ?front⟩, ?filled,
    query.withoutLimit.spell dialect Term.slotText, ?unlimited⟩
  case count => rw [fills.count, List.length_append, List.length_map, List.length_singleton]
  case text =>
    have marked (front : String) : front ++ " limit " ++ "?" = front ++ " limit ?" := by
      rw [String.append_assoc]
      rfl
    exact (Query.spell_of_limit selects opened dialect _).trans
      (congrArg (fun text => text ++ query.offsetText) (marked _))
  case front => exact write_eq_ok_iff.mpr ⟨noError, rfl⟩
  case filled => rw [List.map_append, List.map_singleton, fills.fill_eq]
  case unlimited => exact write_eq_ok_iff.mpr ⟨noError, rfl⟩

/-- A selection that has every part, and a datum that is a mark itself. -/
def Query.openLimit : Query where
  operation := some .select
  table := some "events"
  columns := ["v"]
  filter := some (.any [.eq "pk" (.bind (.text "?")), .negation (.eq "seen" (.raw "now()"))])
  limit := some (.placeholder "?")
  offset := some 20
  order := ["ts DESC"]

theorem Dialect.fill_open_limit_events :
    Query.openLimit.operation = some .select ∧
      Query.openLimit.limit = some (.placeholder "?") ∧
      Unmarked Query.openLimit.withoutLimit.verbatim ∧
      (Dialect.standard.style.write .openLimit).value =
        .ok ⟨"select v from events where (pk = ? or not seen = now()) order by ts DESC limit ? " ++
          "offset 20", [.text "?"]⟩ ∧
      fill ("select v from events where (pk = ? or not seen = now()) order by ts DESC limit ? " ++
          "offset 20") ["<?>", "<ten>"] =
        "select v from events where (pk = <?> or not seen = now()) order by ts DESC limit <ten> " ++
          "offset 20" := by
  have written : (Dialect.standard.style.write .openLimit).value =
      .ok ⟨"select v from events where (pk = ? or not seen = now()) order by ts DESC limit ? " ++
        "offset 20", [.text "?"]⟩ := rfl
  have unmarked : Unmarked Query.openLimit.withoutLimit.verbatim := by decide
  obtain ⟨-, -, filled, -⟩ :=
    Dialect.fill_open_limit rfl rfl unmarked written Datum.bracketed (.text "ten")
  exact ⟨rfl, rfl, unmarked, written, filled⟩

end BoundQuery
