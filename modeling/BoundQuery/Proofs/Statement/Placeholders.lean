import BoundQuery.Proofs.Statement.Parts

/-!
# Placeholders

The placeholders of a statement and its data belong together by their position. Where no verbatim
text holds a placeholder mark of its own, putting the data into the placeholders from left to
right gives the statement that has every datum written in its place.
-/

set_option autoImplicit false

namespace BoundQuery

/-- Replaces the marks in a text by values, the first mark by the first value. A value is not
searched for marks. -/
def fillChars : List Char → List String → List Char
  | [], _ => []
  | char :: rest, values =>
    if char = '?' then
      match values with
      | [] => char :: fillChars rest []
      | value :: others => value.toList ++ fillChars rest others
    else char :: fillChars rest values

def fill (text : String) (values : List String) : String :=
  .ofList (fillChars text.toList values)

def Unmarked (texts : List String) : Prop :=
  ∀ text ∈ texts, '?' ∉ text.toList

instance (texts : List String) : Decidable (Unmarked texts) :=
  inferInstanceAs (Decidable (∀ text ∈ texts, '?' ∉ text.toList))

def Term.inline (enc : Datum → String) (term : Term) : String :=
  term.bound?.elim term.slotText enc

/-- The statement for a query that writes each datum in its place and has no placeholders. -/
def Query.direct (dialect : Dialect) (enc : Datum → String) (query : Query) : String :=
  query.spell dialect (Term.inline enc)

/-- The text has one mark for each of the values, and is the result once they are filled in. -/
structure Fills (text : String) (values : List String) (result : String) : Prop where
  count : text.toList.count '?' = values.length
  filled : fillChars text.toList values = result.toList

inductive FillsEach : List String → List String → List String → Prop where
  | nil : FillsEach [] [] []
  | cons {text result : String} {values others : List String} {texts results : List String} :
      Fills text values result → FillsEach texts others results →
      FillsEach (text :: texts) (values ++ others) (result :: results)

theorem fillChars_append {left right : List Char} {values others : List String}
    (count : left.count '?' = values.length) :
    fillChars (left ++ right) (values ++ others) =
      fillChars left values ++ fillChars right others := by
  induction left generalizing values with
  | nil =>
    have noValues : values = [] := List.eq_nil_of_length_eq_zero count.symm
    subst values
    rfl
  | cons char rest ih =>
    by_cases mark : char = '?'
    · subst char
      cases values with
      | nil => simp at count
      | cons value more =>
        have restCount : rest.count '?' = more.length := by simpa using count
        simp [fillChars, ih restCount]
    · have restCount : rest.count '?' = values.length := by
        simpa [List.count_cons, mark] using count
      simp [fillChars, mark, ih restCount]

theorem fillChars_of_not_mem {chars : List Char} (unmarked : '?' ∉ chars) :
    fillChars chars [] = chars := by
  induction chars with
  | nil => rfl
  | cons char rest ih =>
    obtain ⟨notMark, restUnmarked⟩ := not_or.mp (mt List.mem_cons.mpr unmarked)
    simp [fillChars, Ne.symm notMark, ih restUnmarked]

namespace Fills

variable {text moreText result moreResult : String} {values moreValues : List String}

theorem append (first : Fills text values result) (second : Fills moreText moreValues moreResult) :
    Fills (text ++ moreText) (values ++ moreValues) (result ++ moreResult) := by
  constructor
  · rw [String.toList_append, List.count_append, first.count, second.count, List.length_append]
  · rw [String.toList_append, fillChars_append first.count, first.filled, second.filled,
      String.toList_append]

theorem unmarked (noMark : '?' ∉ text.toList) : Fills text [] text :=
  ⟨List.count_eq_zero.mpr noMark, fillChars_of_not_mem noMark⟩

theorem placeholder (value : String) : Fills Term.placeholder [value] value := by
  constructor <;> simp [Term.placeholder, fillChars]

theorem fill_eq (fills : Fills text values result) : fill text values = result := by
  rw [fill, fills.filled, String.ofList_toList]

end Fills

namespace FillsEach

variable {texts moreTexts results moreResults : List String} {values moreValues : List String}

theorem append (first : FillsEach texts values results)
    (second : FillsEach moreTexts moreValues moreResults) :
    FillsEach (texts ++ moreTexts) (values ++ moreValues) (results ++ moreResults) := by
  induction first with
  | nil => exact second
  | cons fills _ ih =>
    rw [List.append_assoc]
    exact .cons fills ih

theorem singleton {text result : String} (fills : Fills text values result) :
    FillsEach [text] values [result] := by
  have one := FillsEach.cons fills .nil
  rwa [List.append_nil] at one

theorem unmarked (noMark : Unmarked texts) : FillsEach texts [] texts := by
  induction texts with
  | nil => exact .nil
  | cons text rest ih =>
    obtain ⟨textUnmarked, restUnmarked⟩ := List.forall_mem_cons.mp noMark
    exact .cons (.unmarked textUnmarked) (ih restUnmarked)

theorem intercalate {separator : String} (noMark : '?' ∉ separator.toList)
    (each : FillsEach texts values results) :
    Fills (separator.intercalate texts) values (separator.intercalate results) := by
  induction each with
  | nil => exact .unmarked (by simp)
  | @cons text result values others texts results fills rest ih =>
    cases rest with
    | nil => simpa using fills
    | cons next more =>
      rw [String.intercalate_cons_cons, String.intercalate_cons_cons]
      have first := fills.append (.unmarked noMark)
      rw [List.append_nil] at first
      exact first.append ih

end FillsEach

theorem unmarked_append {texts others : List String} :
    Unmarked (texts ++ others) ↔ Unmarked texts ∧ Unmarked others :=
  List.forall_mem_append

theorem Term.fills_slotText {term : Term} (unmarked : Unmarked term.verbatim)
    (enc : Datum → String) :
    Fills term.slotText (term.bound?.toList.map enc) (term.inline enc) := by
  cases term with
  | raw text => exact .unmarked (unmarked text List.mem_cons_self)
  | literal datum | bind datum => exact .placeholder (enc _)

namespace Condition

mutual

theorem fills_spell (enc : Datum → String) : ∀ condition : Condition,
    Unmarked condition.verbatim →
    Fills (condition.spell Term.slotText) (condition.data.map enc)
      (condition.spell (Term.inline enc))
  | .compare comparator column right, unmarked => by
    obtain ⟨columnUnmarked, rightUnmarked⟩ := List.forall_mem_cons.mp unmarked
    have symbol := Fills.unmarked (comparator.isPlain_symbol.not_mem (by decide))
    have filled := ((Fills.unmarked columnUnmarked).append symbol).append
      (right.fills_slotText rightUnmarked enc)
    rw [data_compare]
    simpa [String.append_assoc] using filled
  | .group connective members, unmarked => by
    have inner := FillsEach.intercalate (connective.isPlain_word.not_mem (by decide))
      (fills_spellAll enc members unmarked)
    have opening : Fills "(" [] "(" := .unmarked (by decide)
    have closing : Fills ")" [] ")" := .unmarked (by decide)
    simpa [data] using (opening.append inner).append closing
  | .negation negated, unmarked => by
    have word : Fills (negationWord ++ " ") [] (negationWord ++ " ") := .unmarked (by decide)
    simpa [data] using word.append (fills_spell enc negated unmarked)

theorem fills_spellAll (enc : Datum → String) : ∀ members : List Condition,
    Unmarked (verbatimOf members) →
    FillsEach (spellAll Term.slotText members)
      (((termsOf members).filterMap Term.bound?).map enc) (spellAll (Term.inline enc) members)
  | [], _ => .nil
  | member :: rest, unmarked => by
    obtain ⟨memberUnmarked, restUnmarked⟩ := unmarked_append.mp unmarked
    rw [termsOf_cons, List.filterMap_append, List.map_append]
    exact .cons (fills_spell enc member memberUnmarked) (fills_spellAll enc rest restUnmarked)

end

theorem fills_spellIn (dialect : Dialect) {condition : Condition}
    (unmarked : Unmarked condition.verbatim) (enc : Datum → String) :
    Fills (condition.spellIn Term.slotText dialect) (condition.data.map enc)
      (condition.spellIn (Term.inline enc) dialect) := by
  rcases spellIn_cases dialect condition with whole | ⟨connective, members, rfl, rfl⟩
  · rw [whole, whole]
    exact fills_spell enc condition unmarked
  · exact FillsEach.intercalate (connective.isPlain_word.not_mem (by decide))
      (fills_spellAll enc members unmarked)

end Condition

namespace Query

theorem fills_filterParts (dialect : Dialect) {query : Query}
    (unmarked : Unmarked (query.filter.elim [] Condition.verbatim)) (enc : Datum → String) :
    FillsEach (query.filterParts dialect Term.slotText)
      ((query.filterTerms.filterMap Term.bound?).map enc)
      (query.filterParts dialect (Term.inline enc)) := by
  unfold filterParts filterTerms
  cases present : query.filter with
  | none => exact .nil
  | some condition =>
    rw [present] at unmarked
    have word : Unmarked ["where"] := by simp [Unmarked]
    exact (FillsEach.unmarked word).append
      (.singleton (Condition.fills_spellIn dialect unmarked enc))

theorem fills_values {values : List Term} (unmarked : Unmarked (values.flatMap Term.verbatim))
    (enc : Datum → String) :
    FillsEach (values.map Term.slotText) ((values.filterMap Term.bound?).map enc)
      (values.map (Term.inline enc)) := by
  induction values with
  | nil => exact .nil
  | cons term rest ih =>
    rw [List.flatMap_cons] at unmarked
    obtain ⟨termUnmarked, restUnmarked⟩ := unmarked_append.mp unmarked
    have bound : (term :: rest).filterMap Term.bound? =
        term.bound?.toList ++ rest.filterMap Term.bound? := by
      cases datum : term.bound? <;> simp [datum]
    rw [bound, List.map_append]
    exact .cons (term.fills_slotText termUnmarked enc) (ih restUnmarked)

theorem fills_slotParts {query : Query}
    (unmarked : Unmarked (query.values.flatMap Term.verbatim)) (enc : Datum → String) :
    FillsEach (query.slotParts Term.slotText) ((query.values.filterMap Term.bound?).map enc)
      (query.slotParts (Term.inline enc)) := by
  have writtenUnmarked : Unmarked ((Style.writtenValues query.values).flatMap Term.verbatim) := by
    intro text member
    obtain ⟨term, written, isText⟩ := List.mem_flatMap.mp member
    exact unmarked text (List.mem_flatMap.mpr ⟨term, List.mem_of_mem_filter written, isText⟩)
  have slots := fills_values writtenUnmarked enc
  rw [Style.binds_writtenValues] at slots
  unfold slotParts
  cases written : Style.writtenValues query.values with
  | nil =>
    rw [written] at slots
    exact slots
  | cons first rest =>
    rw [written] at slots
    exact .singleton (slots.intercalate (by decide))

theorem fills_parts (dialect : Dialect) {query : Query} {operation : Operation}
    (chosen : query.operation = some operation) (unmarked : Unmarked query.verbatim)
    (enc : Datum → String) :
    FillsEach (query.parts dialect Term.slotText operation) (query.data.map enc)
      (query.parts dialect (Term.inline enc) operation) := by
  have cumulative := Text.cumulative_not_mem
  unfold data terms
  unfold verbatim at unmarked
  rw [chosen] at unmarked ⊢
  cases operation with
  | select =>
    simp only [unmarked_append] at unmarked
    obtain ⟨⟨⟨⟨table, columns⟩, filter⟩, order⟩, limit⟩ := unmarked
    have selection : Unmarked (["select"] ++ Piece.visible query.selectionText ++
        ["from", query.table.getD ""]) := by
      refine unmarked_append.mpr ⟨unmarked_append.mpr ⟨?_, ?_⟩, ?_⟩
      · simp [Unmarked]
      · exact Piece.forall_mem_visible (cumulative.selectionText columns)
      · simp [Unmarked, cumulative.table table]
    have filtered := (FillsEach.unmarked selection).append (fills_filterParts dialect filter enc)
    have ordered := filtered.append (.unmarked (cumulative.orderParts order))
    have limited := ordered.append (.unmarked (cumulative.limitParts limit))
    have filled := limited.append (.unmarked (cumulative.offsetParts query))
    simpa [parts] using filled
  | insert =>
    simp only [unmarked_append] at unmarked
    obtain ⟨⟨table, columns⟩, values⟩ := unmarked
    have names : Unmarked (["insert into", query.table.getD "", "("] ++
        Piece.visible (Style.listSeparator.intercalate query.columns) ++
        [")", "values", "("]) := by
      refine unmarked_append.mpr ⟨unmarked_append.mpr ⟨?_, ?_⟩, ?_⟩
      · simp [Unmarked, cumulative.table table]
      · exact Piece.forall_mem_visible (cumulative.list columns)
      · simp [Unmarked]
    have closing : Unmarked [")"] := by simp [Unmarked]
    have slots := (FillsEach.unmarked names).append (fills_slotParts values enc)
    have filled := slots.append (.unmarked closing)
    simpa [parts] using filled
  | delete =>
    obtain ⟨table, filter⟩ := unmarked_append.mp unmarked
    have names : Unmarked ["delete from", query.table.getD ""] := by
      simp [Unmarked, cumulative.table table]
    have filled := (FillsEach.unmarked names).append (fills_filterParts dialect filter enc)
    simpa [parts] using filled

theorem fills_spell (dialect : Dialect) {query : Query} (unmarked : Unmarked query.verbatim)
    (enc : Datum → String) :
    Fills (query.spell dialect Term.slotText) (query.data.map enc) (query.direct dialect enc) := by
  unfold direct spell
  cases chosen : query.operation with
  | none =>
    have noData : query.data = [] := by simp [data, terms, chosen]
    rw [noData]
    exact .unmarked (by simp)
  | some operation =>
    exact (fills_parts dialect chosen unmarked enc).intercalate (by decide)

end Query

/-- The data of a statement belong to its placeholders by position: there are as many of each,
and with every datum put into its placeholder the statement is the one that writes the data
directly. Only the texts that are repeated in the statement must be free of marks. -/
theorem Dialect.fill_write {dialect : Dialect} {query : Query} {statement : Statement}
    (written : (dialect.style.write query).value = .ok statement)
    (unmarked : Unmarked query.verbatim) (enc : Datum → String) :
    statement.text.toList.count '?' = statement.binds.length ∧
      fill statement.text (statement.binds.map enc) = query.direct dialect enc := by
  obtain ⟨-, rfl⟩ := write_eq_ok_iff.mp written
  have fills := query.fills_spell dialect unmarked enc
  constructor
  · rw [fills.count, List.length_map]
  · exact fills.fill_eq

/-- A deletion whose first datum is a mark itself, after a normalised literal. -/
def Query.markedDeletion : Query where
  operation := some .delete
  table := some "aquarium"
  filter := some (.any [.eq "fish" (.literal (.text "%@")), .negation (.eq "seen" (.raw "now()")),
    .all [.ne "name" (.bind (.text "cod"))]])

def Datum.bracketed (datum : Datum) : String :=
  "<" ++ datum.text?.getD "" ++ ">"

/-- A mark that is filled in is not taken for a placeholder. -/
theorem Dialect.fill_write_markedDeletion :
    (Dialect.cql.style.write .markedDeletion).value =
        .ok ⟨"delete from aquarium where fish = ? or not seen = now() or (name != ?)",
          [.text "?", .text "cod"]⟩ ∧
      Unmarked Query.markedDeletion.verbatim ∧
      "delete from aquarium where fish = ? or not seen = now() or (name != ?)".toList.count '?' =
        2 ∧
      fill "delete from aquarium where fish = ? or not seen = now() or (name != ?)"
          ["<?>", "<cod>"] =
        "delete from aquarium where fish = <?> or not seen = now() or (name != <cod>)" := by
  have written : (Dialect.cql.style.write .markedDeletion).value =
      .ok ⟨"delete from aquarium where fish = ? or not seen = now() or (name != ?)",
        [.text "?", .text "cod"]⟩ := rfl
  have unmarked : Unmarked Query.markedDeletion.verbatim := by decide
  obtain ⟨count, filled⟩ := Dialect.fill_write written unmarked Datum.bracketed
  exact ⟨written, unmarked, count, filled⟩

end BoundQuery
