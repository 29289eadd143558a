import Mathlib.Data.List.Basic

/-!
# Tokens

A text is cut into parentheses and words. A word is whatever stands between parentheses and
spaces, so a text that is laid out by spaces is cut where it was put together.
-/

set_option autoImplicit false

namespace BoundQuery

/-- What a text is cut into: parentheses, and the words between them and between spaces. -/
inductive Token where
  | opening
  | closing
  | word (text : String)

namespace Token

def flush (pending : List Char) (tokens : List Token) : List Token :=
  if pending = [] then tokens else .word (.ofList pending) :: tokens

/-- Cuts characters into tokens, after the pending ones of an unfinished word. -/
def scan (pending : List Char) : List Char → List Token
  | [] => flush pending []
  | char :: rest =>
    if char = ' ' then flush pending (scan [] rest)
    else if char = '(' then flush pending (.opening :: scan [] rest)
    else if char = ')' then flush pending (.closing :: scan [] rest)
    else scan (pending ++ [char]) rest

def ofText (text : String) : List Token :=
  scan [] text.toList

def isDelimiter (char : Char) : Bool :=
  char = ' ' || char = '(' || char = ')'

/-- Characters in front of which a word ends. -/
def Delimited (chars : List Char) : Prop :=
  ∀ char ∈ chars.head?, isDelimiter char = true

/-- A text that is cut into one word. -/
structure IsSolid (text : String) : Prop where
  ne_empty : text ≠ ""
  chars : ∀ char ∈ text.toList, isDelimiter char = false

theorem isSolid_iff {text : String} :
    IsSolid text ↔ text ≠ "" ∧ text.toList.all (fun char => !isDelimiter char) = true := by
  constructor
  · intro solid
    exact ⟨solid.ne_empty, by simpa using solid.chars⟩
  · rintro ⟨notEmpty, chars⟩
    exact ⟨notEmpty, by simpa using chars⟩

instance (text : String) : Decidable (IsSolid text) :=
  decidable_of_iff _ isSolid_iff.symm

theorem IsSolid.spaceless {text : String} (solid : IsSolid text) : ' ' ∉ text.toList := by
  intro member
  have notDelimiter := solid.chars ' ' member
  exact absurd notDelimiter (by decide)

theorem scan_of_delimited {chars : List Char} (delimited : Delimited chars) (pending : List Char) :
    scan pending chars = flush pending (scan [] chars) := by
  cases chars with
  | nil => rfl
  | cons char rest =>
    have delimiter := delimited char (by simp)
    simp only [isDelimiter, Bool.or_eq_true, decide_eq_true_eq] at delimiter
    rcases delimiter with (rfl | rfl) | rfl <;> rfl

theorem scan_append {word : List Char} (solid : ∀ char ∈ word, isDelimiter char = false)
    (pending rest : List Char) : scan pending (word ++ rest) = scan (pending ++ word) rest := by
  induction word generalizing pending with
  | nil => rw [List.nil_append, List.append_nil]
  | cons char others ih =>
    obtain ⟨notDelimiter, othersSolid⟩ := List.forall_mem_cons.mp solid
    simp only [isDelimiter, Bool.or_eq_false_iff, decide_eq_false_iff_not] at notDelimiter
    obtain ⟨⟨notSpace, notOpening⟩, notClosing⟩ := notDelimiter
    rw [List.cons_append, scan, if_neg notSpace, if_neg notOpening, if_neg notClosing,
      ih othersSolid, List.append_assoc]
    rfl

theorem scan_word {text : String} (solid : IsSolid text) {rest : List Char}
    (delimited : Delimited rest) : scan [] (text.toList ++ rest) = .word text :: scan [] rest := by
  have notEmpty : text.toList ≠ [] := by
    intro empty
    exact solid.ne_empty (String.toList_eq_nil_iff.mp empty)
  rw [scan_append solid.chars, List.nil_append, scan_of_delimited delimited, flush,
    if_neg notEmpty, String.ofList_toList]

@[simp] theorem scan_nil : scan [] [] = [] := rfl

@[simp] theorem scan_space (rest : List Char) : scan [] (' ' :: rest) = scan [] rest := rfl

@[simp] theorem scan_opening (rest : List Char) :
    scan [] ('(' :: rest) = .opening :: scan [] rest := rfl

@[simp] theorem scan_closing (rest : List Char) :
    scan [] (')' :: rest) = .closing :: scan [] rest := rfl

theorem delimited_nil : Delimited [] := by
  simp [Delimited]

theorem delimited_space (rest : List Char) : Delimited (' ' :: rest) := by
  simp [Delimited, isDelimiter]

theorem delimited_closing (rest : List Char) : Delimited (')' :: rest) := by
  simp [Delimited, isDelimiter]

end Token

/-- A name: ASCII letters, digits and underscores, and none of the reserved words. -/
structure IsWord (reserved : List String) (text : String) : Prop where
  ne_empty : text ≠ ""
  chars : ∀ char ∈ text.toList, char.isAlphanum = true ∨ char = '_'
  not_reserved : text ∉ reserved

theorem isWord_iff {reserved : List String} {text : String} :
    IsWord reserved text ↔
      text ≠ "" ∧ text.toList.all (fun char => char.isAlphanum || char == '_') = true ∧
        text ∉ reserved := by
  constructor
  · intro isWord
    exact ⟨isWord.ne_empty, by simpa using isWord.chars, isWord.not_reserved⟩
  · rintro ⟨notEmpty, chars, notReserved⟩
    exact ⟨notEmpty, by simpa using chars, notReserved⟩

instance (reserved : List String) (text : String) : Decidable (IsWord reserved text) :=
  decidable_of_iff _ isWord_iff.symm

theorem IsWord.isSolid {reserved : List String} {text : String}
    (isWord : IsWord reserved text) : Token.IsSolid text where
  ne_empty := isWord.ne_empty
  chars := by
    intro char member
    rcases isWord.chars char member with alphanumeric | rfl
    · simp only [Token.isDelimiter, Bool.or_eq_false_iff, decide_eq_false_iff_not]
      refine ⟨⟨?_, ?_⟩, ?_⟩ <;> rintro rfl <;> exact absurd alphanumeric (by decide)
    · decide

theorem isDigit_of_mem_toString {number : Nat} {char : Char}
    (member : char ∈ (toString number).toList) : char.isDigit = true := by
  rw [Nat.toString_eq_repr, Nat.toList_repr] at member
  exact Nat.isDigit_of_mem_toDigits (by decide) (by decide) member

/-- A number is the value of its decimal digits. -/
theorem number_eq_of_toString_eq {left right : Nat} (same : toString left = toString right) :
    left = right := by
  have digits := congrArg String.toList same
  rw [Nat.toString_eq_repr, Nat.toString_eq_repr, Nat.toList_repr, Nat.toList_repr] at digits
  have values := congrArg (Nat.ofDigitChars 10 · 0) digits
  simpa only [Nat.ofDigitChars_ten_toDigits] using values

/-- A number in decimal is a word, if no reserved word begins with a digit. -/
theorem isWord_toString {reserved : List String}
    (undecimal : ∀ word ∈ reserved, word.toList.head?.any Char.isDigit = false)
    (number : Nat) : IsWord reserved (toString number) where
  ne_empty := by
    rw [Nat.toString_eq_repr]
    exact Nat.repr_ne_empty
  chars := by
    intro char member
    exact .inl (by simp [Char.isAlphanum, isDigit_of_mem_toString member])
  not_reserved := by
    intro isReserved
    have written : (toString number).toList ≠ [] := by
      rw [Nat.toString_eq_repr, Nat.toList_repr]
      exact Nat.toDigits_ne_nil
    obtain ⟨first, others, chars⟩ := List.exists_cons_of_ne_nil written
    have isFirst : first ∈ (toString number).toList := by
      rw [chars]
      exact List.mem_cons_self
    have notDigit := undecimal _ isReserved
    rw [chars, List.head?_cons, Option.any_some, isDigit_of_mem_toString isFirst] at notDigit
    cases notDigit

end BoundQuery
