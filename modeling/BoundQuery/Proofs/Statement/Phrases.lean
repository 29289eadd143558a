import BoundQuery.Proofs.Condition.Grammar
import BoundQuery.Proofs.Statement.Layout
import BoundQuery.Proofs.Statement.Verbatim
import BoundQuery.Proofs.Text.Chunk

/-!
# Phrases of statements

A statement as a row of phrases, each of them opened by a word of its own: what is selected, the
table, the filter, and so on. Where all names are words and none of them is reserved, the text of a
statement is cut at its spaces into these phrases, and no phrase is opened inside of another, not
even inside of a filter that CQL leaves without parentheses.
-/

set_option autoImplicit false

namespace BoundQuery

open Token (IsSolid)

/-- The words by which the phrases of a statement are opened. -/
def leadingWords : List String :=
  ["select", "insert", "delete", "from", "where", "values", "order", "limit", "offset"]

def reservedWords : List String :=
  keywords ++ ["into", "by"] ++ leadingWords

theorem not_leading_of_mem {chunk : String} {char : Char} (member : char ∈ chunk.toList)
    (notLetter : char.isLower = false) : chunk ∉ leadingWords := by
  intro leading
  have letters : ∀ word ∈ leadingWords, word.toList.all Char.isLower = true := by decide
  rw [List.all_eq_true.mp (letters chunk leading) char member] at notLetter
  cases notLetter

theorem isWord_number (number : Nat) : IsWord reservedWords (toString number) :=
  isWord_toString (by decide) number

theorem not_leading_of_isWord {text : String} (isWord : IsWord reservedWords text) :
    text ∉ leadingWords :=
  fun leading => isWord.not_reserved (List.mem_append_right _ leading)

/-- No phrase is opened inside of the text. -/
def LeadFree (text : String) : Prop :=
  ∀ chunk ∈ Text.chunks text, chunk ∉ leadingWords

namespace LeadFree

variable {text other : String}

theorem solid (isSolid : IsSolid text) (notLeading : text ∉ leadingWords) : LeadFree text := by
  intro chunk isChunk
  rw [Text.chunks_eq_singleton isSolid.spaceless] at isChunk
  rw [List.mem_singleton.mp isChunk]
  exact notLeading

theorem isWord (isWord : IsWord reservedWords text) : LeadFree text :=
  solid isWord.isSolid (not_leading_of_isWord isWord)

theorem slot {term : Term} (words : ∀ text ∈ term.verbatim, IsWord reservedWords text) :
    LeadFree term.slotText := by
  rcases Term.isWord_or_placeholder words with isWord | isPlaceholder
  · exact .isWord isWord
  · rw [isPlaceholder]
    exact .solid (by decide) (by decide)

theorem append_space (first : LeadFree text) (second : LeadFree other) :
    LeadFree (text ++ " " ++ other) := by
  intro chunk isChunk
  rw [Text.chunks_append_space] at isChunk
  rcases List.mem_append.mp isChunk with inFirst | inSecond
  · exact first chunk inFirst
  · exact second chunk inSecond

theorem parenthesized (inner : LeadFree text) : LeadFree ("(" ++ text ++ ")") := by
  intro chunk isChunk
  rcases Text.mem_chunks_parenthesized isChunk with opening | closing | isInner
  · exact not_leading_of_mem opening (by decide)
  · exact not_leading_of_mem closing (by decide)
  · exact inner chunk isInner

theorem connective (connective : Connective) : LeadFree connective.word := by
  cases connective <;> exact .solid (by decide) (by decide)

theorem intercalate {texts : List String} (word : Connective)
    (each : ∀ text ∈ texts, LeadFree text) :
    LeadFree ((" " ++ word.word ++ " ").intercalate texts) := by
  induction texts with
  | nil =>
    intro chunk isChunk
    rw [String.intercalate_nil, Text.chunks_eq_singleton (by simp)] at isChunk
    rw [List.mem_singleton.mp isChunk]
    decide
  | cons text rest ih =>
    obtain ⟨first, others⟩ := List.forall_mem_cons.mp each
    cases rest with
    | nil =>
      rw [String.intercalate_singleton]
      exact first
    | cons next more =>
      have separated := (first.append_space (.connective word)).append_space (ih others)
      rw [String.intercalate_cons_cons]
      simpa only [String.append_assoc] using separated

end LeadFree

namespace Condition

/-- Neither a connective nor a parenthesis makes a leading word of a name. -/
theorem leadFree_spell {condition : Condition}
    (words : ∀ text ∈ condition.verbatim, IsWord reservedWords text) :
    LeadFree (condition.spell Term.slotText) := by
  induction condition with
  | compare comparator column right =>
    obtain ⟨columnWord, rightWords⟩ := List.forall_mem_cons.mp words
    have symbol : LeadFree comparator.symbol := by
      cases comparator <;> exact .solid (by decide) (by decide)
    have compared := ((LeadFree.isWord columnWord).append_space symbol).append_space
      (.slot rightWords)
    rw [spell_compare]
    exact compared
  | group connective members ih =>
    rw [verbatim_group, verbatimOf_eq_flatMap] at words
    rw [spell_group, spellAll_eq_map]
    refine .parenthesized (.intercalate connective ?_)
    intro text isText
    obtain ⟨member, isMember, rfl⟩ := List.mem_map.mp isText
    exact ih member isMember fun text isVerbatim =>
      words text (List.mem_flatMap.mpr ⟨member, isMember, isVerbatim⟩)
  | negation negated ih =>
    have word : LeadFree negationWord := .solid (by decide) (by decide)
    rw [spell_negation]
    exact word.append_space (ih words)

theorem leadFree_spellIn (dialect : Dialect) {condition : Condition}
    (words : ∀ text ∈ condition.verbatim, IsWord reservedWords text) :
    LeadFree (condition.spellIn Term.slotText dialect) := by
  rcases spellIn_cases dialect condition with whole | ⟨connective, members, rfl, rfl⟩
  · rw [whole]
    exact leadFree_spell words
  · rw [verbatim_group, verbatimOf_eq_flatMap] at words
    rw [spellIn_cql_group, spellAll_eq_map]
    refine .intercalate connective ?_
    intro text isText
    obtain ⟨member, isMember, rfl⟩ := List.mem_map.mp isText
    exact leadFree_spell fun text isVerbatim =>
      words text (List.mem_flatMap.mpr ⟨member, isMember, isVerbatim⟩)

end Condition

namespace Query

/-- All names of a query are words that are not reserved. A limit may also be a placeholder. -/
structure InWords (query : Query) : Prop where
  table : ∀ text ∈ query.table.toList, IsWord reservedWords text
  columns : ∀ text ∈ query.columns, IsWord reservedWords text
  values : ∀ text ∈ query.values.flatMap Term.verbatim, IsWord reservedWords text
  filter : ∀ text ∈ query.filter.elim [] Condition.verbatim, IsWord reservedWords text
  limit : ∀ text ∈ query.limit.elim [] Limit.verbatim,
    IsWord reservedWords text ∨ text = Term.placeholder
  order : ∀ text ∈ query.order, IsWord reservedWords text

theorem inWords_iff {query : Query} :
    query.InWords ↔
      (∀ text ∈ query.table.toList, IsWord reservedWords text) ∧
      (∀ text ∈ query.columns, IsWord reservedWords text) ∧
      (∀ text ∈ query.values.flatMap Term.verbatim, IsWord reservedWords text) ∧
      (∀ text ∈ query.filter.elim [] Condition.verbatim, IsWord reservedWords text) ∧
      (∀ text ∈ query.limit.elim [] Limit.verbatim,
        IsWord reservedWords text ∨ text = Term.placeholder) ∧
      ∀ text ∈ query.order, IsWord reservedWords text := by
  constructor
  · intro words
    exact ⟨words.table, words.columns, words.values, words.filter, words.limit, words.order⟩
  · rintro ⟨table, columns, values, filter, limit, order⟩
    exact { table, columns, values, filter, limit, order }

instance (query : Query) : Decidable query.InWords :=
  decidable_of_iff _ inWords_iff.symm

/-- What a selection selects. No columns are written as one item that is not a word. -/
def selectionItems (query : Query) : List String :=
  if query.columns = [] then ["*"] else query.columns

def slotTexts (query : Query) : List String :=
  (Style.writtenValues query.values).map Term.slotText

def filterPhrase (dialect : Dialect) (query : Query) : Phrase :=
  ⟨"where", query.filter.map fun condition =>
    Text.chunks (condition.spellIn Term.slotText dialect)⟩

/-- A statement as its phrases, of which a filter, an order, a limit and an offset may be absent. -/
def phrases (dialect : Dialect) (query : Query) : Operation → List Phrase
  | .select =>
    [⟨"select", some (Text.listed query.selectionItems)⟩, ⟨"from", some [query.table.getD ""]⟩,
      query.filterPhrase dialect,
      ⟨"order", if query.order = [] then none else some ("by" :: Text.listed query.order)⟩,
      ⟨"limit", query.limit.map fun limit => [limit.text]⟩,
      ⟨"offset", query.offset.map fun count => [toString count.toNat]⟩]
  | .insert =>
    [⟨"insert", some ("into" :: query.table.getD "" :: "(" ::
        (Text.listed query.columns ++ [")"]))⟩,
      ⟨"values", some ("(" :: (Text.listed query.slotTexts ++ [")"]))⟩]
  | .delete =>
    [⟨"delete", some []⟩, ⟨"from", some [query.table.getD ""]⟩, query.filterPhrase dialect]

section Chunks

variable {query : Query}

theorem isSolid_of_words {texts : List String} (words : ∀ text ∈ texts, IsWord reservedWords text) :
    ∀ text ∈ texts, IsSolid text :=
  fun text member => (words text member).isSolid

theorem InWords.isSolid_selectionItems (words : query.InWords) :
    ∀ item ∈ query.selectionItems, IsSolid item := by
  unfold selectionItems
  split
  · decide
  · exact isSolid_of_words words.columns

theorem InWords.slot_words (words : query.InWords) {term : Term}
    (written : term ∈ Style.writtenValues query.values) :
    ∀ text ∈ term.verbatim, IsWord reservedWords text := by
  intro text isVerbatim
  have isValue : term ∈ query.values := List.mem_of_mem_filter written
  exact words.values text (List.mem_flatMap.mpr ⟨term, isValue, isVerbatim⟩)

theorem InWords.isSolid_slotTexts (words : query.InWords) :
    ∀ text ∈ query.slotTexts, IsSolid text := by
  intro text isSlot
  obtain ⟨term, written, rfl⟩ := List.mem_map.mp isSlot
  exact Term.isSolid_slotText (words.slot_words written)

theorem InWords.limit_word (words : query.InWords) {limit : Limit}
    (present : query.limit = some limit) :
    IsWord reservedWords limit.text ∨ limit.text = Term.placeholder := by
  have verbatim := words.limit
  rw [present] at verbatim
  cases limit with
  | count rows => exact .inl (isWord_number rows.toNat)
  | placeholder text => exact verbatim text List.mem_cons_self

theorem table_word (words : query.InWords) (named : query.hasTable = true) :
    IsWord reservedWords (query.table.getD "") := by
  have verbatim := words.table
  rw [table_eq_some_getD named] at verbatim
  exact verbatim _ List.mem_cons_self

/-- A joined list is cut at its commas and nowhere else. An empty list leaves no chunk. -/
theorem chunks_visible {items : List String} (solid : ∀ item ∈ items, IsSolid item) :
    (Piece.visible (Style.listSeparator.intercalate items)).flatMap Text.chunks =
      Text.listed items := by
  cases items with
  | nil => rfl
  | cons item rest =>
    have itemText := (solid item List.mem_cons_self).ne_empty
    have joined : Style.listSeparator.intercalate (item :: rest) ≠ "" := by
      cases rest with
      | nil => simpa using itemText
      | cons next others => simp [String.append_eq_empty_iff, itemText]
    rw [Piece.visible, if_neg joined, List.flatMap_singleton]
    exact Text.chunks_list (by simp) fun other isOther => (solid other isOther).spaceless

theorem selectionText_eq (query : Query) :
    query.selectionText = Style.listSeparator.intercalate query.selectionItems := by
  unfold selectionText selectionItems
  cases query.columns with
  | nil => rfl
  | cons column rest => rfl

theorem chunks_slotParts (words : query.InWords) :
    (query.slotParts Term.slotText).flatMap Text.chunks = Text.listed query.slotTexts := by
  have solid := words.isSolid_slotTexts
  unfold slotParts slotTexts at *
  cases written : Style.writtenValues query.values with
  | nil => rfl
  | cons first rest =>
    rw [written] at solid
    rw [List.flatMap_singleton]
    exact Text.chunks_list (by simp) fun text isSlot => (solid text isSlot).spaceless

theorem chunks_filterParts (dialect : Dialect) (query : Query) :
    (query.filterParts dialect Term.slotText).flatMap Text.chunks =
      (query.filterPhrase dialect).chunks := by
  have word : Text.chunks "where" = ["where"] := Text.chunks_eq_singleton (by decide)
  unfold filterParts filterPhrase
  cases query.filter with
  | none => rfl
  | some condition => simp [word, Phrase.chunks]

theorem chunks_orderParts (words : query.InWords) :
    query.orderParts.flatMap Text.chunks =
      Phrase.chunks ⟨"order", if query.order = [] then none
        else some ("by" :: Text.listed query.order)⟩ := by
  have solid := isSolid_of_words words.order
  unfold orderParts
  generalize query.order = columns at solid ⊢
  cases columns with
  | nil => rfl
  | cons column rest =>
    have opening : Text.chunks ("order" ++ " " ++ "by") = ["order", "by"] :=
      Text.chunks_pair (by decide) (by decide)
    have separated : "order by " = "order" ++ " " ++ "by" ++ " " := rfl
    have list := Text.chunks_list (List.cons_ne_nil column rest) fun text isColumn =>
      (solid text isColumn).spaceless
    rw [if_neg (by simp), if_neg (by simp), List.flatMap_singleton, separated,
      Text.chunks_append_space, opening, Style.listSeparator, list]
    rfl

theorem chunks_limitParts (words : query.InWords) :
    query.limitParts.flatMap Text.chunks =
      Phrase.chunks ⟨"limit", query.limit.map fun limit => [limit.text]⟩ := by
  unfold limitParts
  cases present : query.limit with
  | none => rfl
  | some limit =>
    have separated : "limit " = "limit" ++ " " := rfl
    have spaceless : ' ' ∉ limit.text.toList := by
      rcases words.limit_word present with isWord | isPlaceholder
      · exact isWord.isSolid.spaceless
      · rw [isPlaceholder]
        decide
    rw [Option.toList_some, List.map_singleton, List.flatMap_singleton, separated,
      Text.chunks_pair (by decide) spaceless]
    rfl

theorem chunks_offsetParts (query : Query) :
    query.offsetParts.flatMap Text.chunks =
      Phrase.chunks ⟨"offset", query.offset.map fun count => [toString count.toNat]⟩ := by
  unfold offsetParts
  cases query.offset with
  | none => rfl
  | some count =>
    have separated : "offset " = "offset" ++ " " := rfl
    have spaceless := (isWord_number count.toNat).isSolid.spaceless
    rw [Option.toList_some, List.map_singleton, List.flatMap_singleton, separated,
      Text.chunks_pair (by decide) spaceless]
    rfl

/-- A statement is cut into its phrases, each chunk of them in its place. -/
theorem chunks_parts (dialect : Dialect) (words : query.InWords) (named : query.hasTable = true)
    (operation : Operation) :
    Text.chunks (" ".intercalate (query.parts dialect Term.slotText operation)) =
      Phrase.layOut (query.phrases dialect operation) := by
  have table : Text.chunks (query.table.getD "") = [query.table.getD ""] :=
    Text.chunks_eq_singleton (table_word words named).isSolid.spaceless
  cases operation with
  | select =>
    have select : Text.chunks "select" = ["select"] := Text.chunks_eq_singleton (by decide)
    have source : Text.chunks "from" = ["from"] := Text.chunks_eq_singleton (by decide)
    have selection := chunks_visible words.isSolid_selectionItems
    rw [← selectionText_eq] at selection
    rw [Text.chunks_intercalate (by simp [parts])]
    simp only [parts, List.flatMap_append, List.flatMap_cons, List.flatMap_nil, select, selection,
      source, table, chunks_filterParts, chunks_orderParts words, chunks_limitParts words,
      chunks_offsetParts]
    simp [phrases, Phrase.layOut, Phrase.chunks]
  | insert =>
    -- The opening part is two chunks, of which only the first opens a phrase.
    have insertion : Text.chunks ("insert" ++ " " ++ "into") = ["insert", "into"] :=
      Text.chunks_pair (by decide) (by decide)
    have separated : "insert into" = "insert" ++ " " ++ "into" := rfl
    have opening : Text.chunks "(" = ["("] := Text.chunks_eq_singleton (by decide)
    have closing : Text.chunks ")" = [")"] := Text.chunks_eq_singleton (by decide)
    have values : Text.chunks "values" = ["values"] := Text.chunks_eq_singleton (by decide)
    have columns := chunks_visible (isSolid_of_words words.columns)
    rw [Text.chunks_intercalate (by simp [parts])]
    simp only [parts, List.flatMap_append, List.flatMap_cons, List.flatMap_nil, separated,
      insertion, opening, closing, values, columns, table, chunks_slotParts words]
    simp [phrases, Phrase.layOut, Phrase.chunks]
  | delete =>
    -- Here both chunks open phrases: a deletion has nothing before its table.
    have deletion : Text.chunks ("delete" ++ " " ++ "from") = ["delete", "from"] :=
      Text.chunks_pair (by decide) (by decide)
    have separated : "delete from" = "delete" ++ " " ++ "from" := rfl
    rw [Text.chunks_intercalate (by simp [parts])]
    simp only [parts, List.flatMap_append, List.flatMap_cons, List.flatMap_nil, separated,
      deletion, table, chunks_filterParts]
    simp [phrases, Phrase.layOut, Phrase.chunks]

end Chunks

section Leads

variable {query : Query}

theorem listed_not_leading {items : List String} (each : ∀ item ∈ items, item ∉ leadingWords) :
    ∀ chunk ∈ Text.listed items, chunk ∉ leadingWords := by
  intro chunk isChunk
  rcases Text.mem_listed isChunk with isItem | comma
  · exact each chunk isItem
  · exact not_leading_of_mem comma (by decide)

theorem enclosed_not_leading {items : List String} (each : ∀ item ∈ items, item ∉ leadingWords) :
    ∀ chunk ∈ "(" :: (Text.listed items ++ [")"]), chunk ∉ leadingWords := by
  refine List.forall_mem_cons.mpr ⟨by decide, List.forall_mem_append.mpr ⟨?_, by decide⟩⟩
  exact listed_not_leading each

theorem InWords.selectionItems_not_leading (words : query.InWords) :
    ∀ item ∈ query.selectionItems, item ∉ leadingWords := by
  unfold selectionItems
  split
  · decide
  · exact fun column isColumn => not_leading_of_isWord (words.columns column isColumn)

theorem InWords.slotTexts_not_leading (words : query.InWords) :
    ∀ text ∈ query.slotTexts, text ∉ leadingWords := by
  intro text isSlot
  obtain ⟨term, written, rfl⟩ := List.mem_map.mp isSlot
  rcases Term.isWord_or_placeholder (words.slot_words written) with isWord | isPlaceholder
  · exact not_leading_of_isWord isWord
  · rw [isPlaceholder]
    decide

theorem avoids_filterPhrase (dialect : Dialect) (words : query.InWords) :
    (query.filterPhrase dialect).Avoids leadingWords := by
  have verbatim := words.filter
  unfold filterPhrase
  cases filter : query.filter with
  | none => exact Phrase.avoids_none
  | some condition =>
    rw [filter] at verbatim
    exact Phrase.avoids_some (Condition.leadFree_spellIn dialect verbatim)

theorem avoids_phrases (dialect : Dialect) (words : query.InWords) (named : query.hasTable = true)
    (operation : Operation) :
    ∀ phrase ∈ query.phrases dialect operation, phrase.Avoids leadingWords := by
  have table : query.table.getD "" ∉ leadingWords := not_leading_of_isWord (table_word words named)
  have source : Phrase.Avoids leadingWords ⟨"from", some [query.table.getD ""]⟩ :=
    Phrase.avoids_some (by simpa using table)
  have filter := avoids_filterPhrase dialect words
  cases operation with
  | select =>
    have selection : Phrase.Avoids leadingWords
        ⟨"select", some (Text.listed query.selectionItems)⟩ :=
      Phrase.avoids_some (listed_not_leading words.selectionItems_not_leading)
    have order : Phrase.Avoids leadingWords
        ⟨"order", if query.order = [] then none else some ("by" :: Text.listed query.order)⟩ := by
      split
      · exact Phrase.avoids_none
      · refine Phrase.avoids_some (List.forall_mem_cons.mpr ⟨by decide, ?_⟩)
        exact listed_not_leading fun column isColumn =>
          not_leading_of_isWord (words.order column isColumn)
    have limit : Phrase.Avoids leadingWords
        ⟨"limit", query.limit.map fun limit => [limit.text]⟩ := by
      cases present : query.limit with
      | none => exact Phrase.avoids_none
      | some limit =>
        refine Phrase.avoids_some (List.forall_mem_singleton.mpr ?_)
        rcases words.limit_word present with isWord | isPlaceholder
        · exact not_leading_of_isWord isWord
        · rw [isPlaceholder]
          decide
    have offset : Phrase.Avoids leadingWords
        ⟨"offset", query.offset.map fun count => [toString count.toNat]⟩ := by
      cases query.offset with
      | none => exact Phrase.avoids_none
      | some count =>
        refine Phrase.avoids_some (List.forall_mem_singleton.mpr ?_)
        exact not_leading_of_isWord (isWord_number count.toNat)
    simp only [phrases, List.forall_mem_cons]
    exact ⟨selection, source, filter, order, limit, offset, List.forall_mem_nil _⟩
  | insert =>
    have columns := enclosed_not_leading fun column isColumn =>
      not_leading_of_isWord (words.columns column isColumn)
    have insertion : ∀ chunk ∈ "into" :: query.table.getD "" :: "(" ::
        (Text.listed query.columns ++ [")"]), chunk ∉ leadingWords :=
      List.forall_mem_cons.mpr ⟨by decide, List.forall_mem_cons.mpr ⟨table, columns⟩⟩
    have values := enclosed_not_leading words.slotTexts_not_leading
    simp only [phrases, List.forall_mem_cons]
    exact ⟨Phrase.avoids_some insertion, Phrase.avoids_some values, List.forall_mem_nil _⟩
  | delete =>
    have deletion : Phrase.Avoids leadingWords ⟨"delete", some []⟩ :=
      Phrase.avoids_some (List.forall_mem_nil _)
    simp only [phrases, List.forall_mem_cons]
    exact ⟨deletion, source, filter, List.forall_mem_nil _⟩

theorem head?_layOut_phrases (dialect : Dialect) (query : Query) (operation : Operation) :
    (Phrase.layOut (query.phrases dialect operation)).head? = some operation.word := by
  cases operation <;> rfl

/-- Which phrases there may be is decided by the operation, and no word opens two of them. -/
theorem words_phrases (dialect : Dialect) (query : Query) (operation : Operation) :
    (query.phrases dialect operation).map Phrase.word =
      match operation with
      | .select => ["select", "from", "where", "order", "limit", "offset"]
      | .insert => ["insert", "values"]
      | .delete => ["delete", "from", "where"] := by
  cases operation <;> rfl

end Leads

end Query

end BoundQuery
