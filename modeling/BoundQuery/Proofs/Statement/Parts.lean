import BoundQuery.Proofs.Statement.Layout
import BoundQuery.Proofs.Statement.Verbatim

/-!
# Parts of statements

What a statement adds to the texts of a caller is plain: words, numbers, commas and spaces. So a
property of texts that survives putting texts together passes from the verbatim texts of a query
to the parts of its statement. Filters and slots are not treated here, since they hold marks and
parentheses of the statement's own.
-/

set_option autoImplicit false

namespace BoundQuery

theorem Piece.forall_mem_visible {holds : String → Prop} {text : String} (given : holds text) :
    ∀ part ∈ visible text, holds part := by
  unfold visible
  split
  · exact List.forall_mem_nil _
  · exact List.forall_mem_singleton.mpr given

namespace Text

/-- Neither a mark nor a parenthesis is in the text. -/
def IsPlain (text : String) : Prop :=
  ∀ char ∈ text.toList, char ∉ ['?', '(', ')']

instance (text : String) : Decidable (IsPlain text) :=
  List.decidableBAll _ text.toList

theorem IsPlain.not_mem {text : String} (plain : IsPlain text) {char : Char}
    (special : char ∈ ['?', '(', ')']) : char ∉ text.toList :=
  fun member => plain char member special

theorem isPlain_toString (number : Nat) : IsPlain (toString number) := by
  intro char member special
  have digit := isDigit_of_mem_toString member
  have noneIsDigit : ['?', '(', ')'].any Char.isDigit = false := by decide
  exact List.any_eq_false.mp noneIsDigit char special digit

end Text

/-- Comparators and connectives are plain, with the spaces around them. -/
theorem Comparator.isPlain_symbol (comparator : Comparator) :
    Text.IsPlain (" " ++ comparator.symbol ++ " ") := by
  cases comparator <;> decide

theorem Connective.isPlain_word (connective : Connective) :
    Text.IsPlain (" " ++ connective.word ++ " ") := by
  cases connective <;> decide

namespace Text

/-- A property that every plain text has, and every text put together from texts that have it. -/
structure Cumulative (holds : String → Prop) : Prop where
  plain : ∀ {text}, IsPlain text → holds text
  append : ∀ {left right}, holds left → holds right → holds (left ++ right)

theorem cumulative_not_mem : Cumulative fun text => '?' ∉ text.toList where
  plain := fun plain => plain.not_mem (by decide)
  append := by
    intro left right leftUnmarked rightUnmarked member
    rw [String.toList_append] at member
    rcases List.mem_append.mp member with inLeft | inRight
    · exact leftUnmarked inLeft
    · exact rightUnmarked inRight

end Text

namespace Text.Cumulative

variable {holds : String → Prop} (cumulative : Cumulative holds)

include cumulative

theorem intercalate {separator : String} (plain : IsPlain separator) {texts : List String}
    (each : ∀ text ∈ texts, holds text) : holds (separator.intercalate texts) := by
  induction texts with
  | nil => exact cumulative.plain (by simp [IsPlain])
  | cons text rest ih =>
    obtain ⟨first, others⟩ := List.forall_mem_cons.mp each
    cases rest with
    | nil => simpa using first
    | cons next more =>
      rw [String.intercalate_cons_cons]
      exact cumulative.append (cumulative.append first (cumulative.plain plain)) (ih others)

variable {query : Query}

theorem list {texts : List String} (each : ∀ text ∈ texts, holds text) :
    holds (Style.listSeparator.intercalate texts) :=
  cumulative.intercalate (by decide) each

theorem table (each : ∀ text ∈ query.table.toList, holds text) : holds (query.table.getD "") := by
  cases table : query.table with
  | none => exact cumulative.plain (by decide)
  | some name => exact each name (by simp [table])

theorem selectionText (each : ∀ text ∈ query.columns, holds text) : holds query.selectionText := by
  unfold Query.selectionText
  split
  · exact cumulative.plain (by decide)
  · exact cumulative.list each

theorem orderParts (each : ∀ text ∈ query.order, holds text) :
    ∀ part ∈ query.orderParts, holds part := by
  unfold Query.orderParts
  split
  · exact List.forall_mem_nil _
  · exact List.forall_mem_singleton.mpr
      (cumulative.append (cumulative.plain (by decide)) (cumulative.list each))

theorem limitParts (each : ∀ text ∈ query.limit.elim [] Limit.verbatim, holds text) :
    ∀ part ∈ query.limitParts, holds part := by
  intro part isPart
  obtain ⟨limit, present, rfl⟩ := List.mem_map.mp isPart
  rw [Option.mem_toList.mp present] at each
  refine cumulative.append (cumulative.plain (by decide)) ?_
  cases limit with
  | count rows => exact cumulative.plain (isPlain_toString rows.toNat)
  | placeholder text => exact each text List.mem_cons_self

theorem offsetParts (query : Query) : ∀ part ∈ query.offsetParts, holds part := by
  intro part isPart
  obtain ⟨count, _, rfl⟩ := List.mem_map.mp isPart
  exact cumulative.append (cumulative.plain (by decide))
    (cumulative.plain (isPlain_toString count.toNat))

end Text.Cumulative

end BoundQuery
