import BoundQuery.Datum

/-!
# Fragments

A fragment is part of a statement: text with placeholders and the data bound to them, in order.
Joining fragments puts a separator between texts that are not empty and never drops a datum.
Nothing here requires the placeholders of the text to match the data in number.
-/

set_option autoImplicit false

namespace BoundQuery

/-- Part of a statement, with the data for its placeholders from left to right. -/
structure Fragment where
  text : String := ""
  binds : List Datum := []

namespace Fragment

def empty : Fragment := {}

def ofText (text : String) : Fragment := { text }

/-- A fragment between two texts, without separators. -/
def between (before after : String) (fragment : Fragment) : Fragment :=
  { fragment with text := before ++ fragment.text ++ after }

def parenthesized (fragment : Fragment) : Fragment :=
  fragment.between "(" ")"

/-- Undoes `parenthesized`: the text without its first and last characters, if these are an opening
and a closing parenthesis. They need not belong together. -/
def unparenthesized (fragment : Fragment) : Fragment :=
  match fragment.text.toList with
  | '(' :: rest =>
    if rest.getLast? = some ')' then { fragment with text := String.ofList rest.dropLast }
    else fragment
  | _ => fragment

/-- Two texts in one. An empty text leaves no trace, not even a separator. -/
def joinTexts (separator left right : String) : String :=
  if left = "" then right
  else if right = "" then left
  else left ++ separator ++ right

/-- Two fragments in one: the texts are joined, and all data are kept in order. -/
def join (separator : String) (left right : Fragment) : Fragment :=
  ⟨joinTexts separator left.text right.text, left.binds ++ right.binds⟩

def joinAll (separator : String) (fragments : List Fragment) : Fragment :=
  fragments.foldl (join separator) empty

def equals (left right : Fragment) : Bool :=
  left.text == right.text && left.binds == right.binds

instance : BEq Fragment := ⟨equals⟩

@[simp] theorem text_ofText (text : String) : (ofText text).text = text := rfl

@[simp] theorem binds_ofText (text : String) : (ofText text).binds = [] := rfl

@[simp] theorem text_parenthesized (fragment : Fragment) :
    fragment.parenthesized.text = "(" ++ fragment.text ++ ")" := rfl

@[simp] theorem binds_parenthesized (fragment : Fragment) :
    fragment.parenthesized.binds = fragment.binds := rfl

@[simp] theorem unparenthesized_parenthesized (fragment : Fragment) :
    fragment.parenthesized.unparenthesized = fragment := by
  simp [unparenthesized]

@[simp] theorem binds_unparenthesized (fragment : Fragment) :
    fragment.unparenthesized.binds = fragment.binds := by
  unfold unparenthesized
  split
  · split <;> rfl
  · rfl

@[simp] theorem joinTexts_empty_left (separator right : String) :
    joinTexts separator "" right = right := by
  simp [joinTexts]

@[simp] theorem joinTexts_empty_right (separator left : String) :
    joinTexts separator left "" = left := by
  simp [joinTexts, eq_comm]

theorem joinTexts_of_ne {separator left right : String} (leftText : left ≠ "")
    (rightText : right ≠ "") : joinTexts separator left right = left ++ separator ++ right := by
  simp [joinTexts, leftText, rightText]

/-- A joined text is empty only if both of its parts are, whatever the separator. -/
theorem joinTexts_eq_empty_iff {separator left right : String} :
    joinTexts separator left right = "" ↔ left = "" ∧ right = "" := by
  by_cases leftText : left = "" <;> by_cases rightText : right = "" <;>
    simp [joinTexts, leftText, rightText]

theorem joinTexts_assoc (separator first second third : String) :
    joinTexts separator (joinTexts separator first second) third =
      joinTexts separator first (joinTexts separator second third) := by
  by_cases firstText : first = "" <;> by_cases secondText : second = "" <;>
    by_cases thirdText : third = "" <;>
    simp [joinTexts, firstText, secondText, thirdText, String.append_assoc]

@[simp] theorem text_join (separator : String) (left right : Fragment) :
    (join separator left right).text = joinTexts separator left.text right.text := rfl

@[simp] theorem binds_join (separator : String) (left right : Fragment) :
    (join separator left right).binds = left.binds ++ right.binds := rfl

@[simp] theorem join_empty_left (separator : String) (fragment : Fragment) :
    join separator empty fragment = fragment := by
  simp [join, empty]

@[simp] theorem join_empty_right (separator : String) (fragment : Fragment) :
    join separator fragment empty = fragment := by
  simp [join, empty]

/-- With the empty fragment, joining by one separator is a monoid. -/
theorem join_assoc (separator : String) (first second third : Fragment) :
    join separator (join separator first second) third =
      join separator first (join separator second third) := by
  simp [join, joinTexts_assoc]

theorem foldl_join (separator : String) (written : Fragment) (fragments : List Fragment) :
    fragments.foldl (join separator) written =
      join separator written (joinAll separator fragments) := by
  induction fragments generalizing written with
  | nil => simp [joinAll]
  | cons fragment rest ih =>
    simp only [joinAll, List.foldl_cons, join_empty_left]
    rw [ih, ih fragment, join_assoc]

@[simp] theorem joinAll_nil (separator : String) : joinAll separator [] = empty := rfl

@[simp] theorem joinAll_cons (separator : String) (fragment : Fragment)
    (rest : List Fragment) :
    joinAll separator (fragment :: rest) = join separator fragment (joinAll separator rest) := by
  rw [joinAll, List.foldl_cons, join_empty_left, foldl_join]

theorem joinAll_append (separator : String) (first second : List Fragment) :
    joinAll separator (first ++ second) =
      join separator (joinAll separator first) (joinAll separator second) := by
  rw [joinAll, List.foldl_append, foldl_join]
  rfl

theorem joinAll_eq_empty (separator : String) {fragments : List Fragment}
    (nothing : ∀ fragment ∈ fragments, fragment = empty) :
    joinAll separator fragments = empty := by
  induction fragments with
  | nil => rfl
  | cons fragment rest ih =>
    obtain ⟨rfl, restNothing⟩ := List.forall_mem_cons.mp nothing
    rw [joinAll_cons, ih restNothing, join_empty_left]

/-- No datum is lost or moved, not even that of a fragment without text. -/
theorem binds_joinAll (separator : String) (fragments : List Fragment) :
    (joinAll separator fragments).binds = fragments.flatMap binds := by
  induction fragments with
  | nil => rfl
  | cons fragment rest ih => simp [ih]

theorem text_joinAll_eq_empty_iff {separator : String} {fragments : List Fragment} :
    (joinAll separator fragments).text = "" ↔ ∀ fragment ∈ fragments, fragment.text = "" := by
  induction fragments with
  | nil => simp [empty]
  | cons fragment rest ih => simp [joinTexts_eq_empty_iff, ih]

/-- The texts that are not empty, with the separator between neighbours, also when the separator
is itself empty. -/
theorem text_joinAll (separator : String) (fragments : List Fragment) :
    (joinAll separator fragments).text =
      separator.intercalate ((fragments.map text).filter fun text => decide (text ≠ "")) := by
  induction fragments with
  | nil => simp [empty]
  | cons fragment rest ih =>
    by_cases noText : fragment.text = ""
    · simp [noText, ih]
    · by_cases noRest : (joinAll separator rest).text = ""
      · have allEmpty := text_joinAll_eq_empty_iff.mp noRest
        have dropped : (rest.map text).filter (fun text => decide (text ≠ "")) = [] := by
          simpa [List.filter_eq_nil_iff] using allEmpty
        rw [joinAll_cons, text_join, noRest, joinTexts_empty_right, List.map_cons,
          List.filter_cons_of_pos (by simpa using noText), dropped, String.intercalate_singleton]
      · have kept : (rest.map text).filter (fun text => decide (text ≠ "")) ≠ [] := by
          intro dropped
          rw [ih, dropped] at noRest
          exact noRest String.intercalate_nil
        rw [joinAll_cons, text_join, joinTexts_of_ne noText noRest, List.map_cons,
          List.filter_cons_of_pos (by simpa using noText),
          String.intercalate_cons_of_ne_nil kept, ih]

theorem joinAll_eq (separator : String) (fragments : List Fragment) :
    joinAll separator fragments =
      ⟨separator.intercalate ((fragments.map text).filter fun text => decide (text ≠ "")),
        fragments.flatMap binds⟩ := by
  rw [← text_joinAll, ← binds_joinAll]

end Fragment

end BoundQuery
