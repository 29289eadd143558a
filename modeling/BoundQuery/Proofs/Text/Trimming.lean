import BoundQuery.Text.Blank
import Mathlib

/-!
# Trimming and letter case

Trimming is characterised by what it leaves: the text without its white space at either end, which
neither begins nor ends with any. Case is that of the ASCII letters alone. Changing it makes no
character white space that was not, so it can be changed before or after trimming.
-/

set_option autoImplicit false

namespace BoundQuery.Text

/-- Neither the first nor the last character is white space. -/
structure IsTight (chars : List Char) : Prop where
  first : ∀ char, chars.head? = some char → isBlankChar char = false
  last : ∀ char, chars.getLast? = some char → isBlankChar char = false

/-- The same text with the case of some ASCII letters changed. -/
def Recased (text recased : String) : Prop :=
  List.Forall₂ (fun char other => other = char ∨ other = char.toLower ∨ other = char.toUpper)
    text.toList recased.toList

instance (text recased : String) : Decidable (Recased text recased) :=
  inferInstanceAs (Decidable (List.Forall₂ _ _ _))

/-- The same text but for white space around it and the case of ASCII letters. -/
def IsVariant (text variant : String) : Prop :=
  ∃ before recased after, isBlank before = true ∧ isBlank after = true ∧ Recased text recased ∧
    variant = before ++ recased ++ after

/-!
## Trimming
-/

section Trimming

variable {before chars after : List Char}

theorem trimChars_eq_rdropWhile (chars : List Char) :
    trimChars chars = (chars.dropWhile isBlankChar).rdropWhile isBlankChar := rfl

/-- White space in front of a text and behind it is trimmed away. -/
theorem trimChars_append (blankBefore : ∀ char ∈ before, isBlankChar char = true)
    (blankAfter : ∀ char ∈ after, isBlankChar char = true) :
    trimChars (before ++ chars ++ after) = trimChars chars := by
  have dropAfter : after.dropWhile isBlankChar = [] := List.dropWhile_eq_nil_iff.mpr blankAfter
  rw [trimChars, List.append_assoc, List.dropWhile_append_of_pos blankBefore,
    List.dropWhile_append, trimChars]
  split
  next allBlank => rw [dropAfter, List.isEmpty_iff.mp allBlank]
  next =>
    rw [List.reverse_append, List.dropWhile_append_of_pos]
    intro char member
    exact blankAfter char (List.mem_reverse.mp member)

theorem isTight_trimChars (chars : List Char) : IsTight (trimChars chars) where
  first := by
    intro char isFirst
    obtain ⟨dropped, whole⟩ := List.rdropWhile_prefix isBlankChar (chars.dropWhile isBlankChar)
    have stopped := List.head?_dropWhile_not isBlankChar chars
    rw [← whole, ← trimChars_eq_rdropWhile, List.head?_append, isFirst] at stopped
    exact stopped
  last := by
    intro char isLast
    have stopped := List.head?_dropWhile_not isBlankChar (chars.dropWhile isBlankChar).reverse
    rw [trimChars, List.getLast?_reverse] at isLast
    rw [isLast] at stopped
    exact stopped

theorem exists_padding_trimChars (chars : List Char) :
    ∃ before after, (∀ char ∈ before, isBlankChar char = true) ∧
      (∀ char ∈ after, isBlankChar char = true) ∧ chars = before ++ trimChars chars ++ after := by
  refine ⟨chars.takeWhile isBlankChar,
    (chars.dropWhile isBlankChar).rtakeWhile isBlankChar, ?_, ?_, ?_⟩
  · intro char member
    exact List.mem_takeWhile_imp member
  · intro char member
    exact List.mem_rtakeWhile_imp member
  · rw [trimChars_eq_rdropWhile, List.append_assoc, List.rdropWhile_append_rtakeWhile,
      List.takeWhile_append_dropWhile]

theorem trimChars_of_isTight (tight : IsTight chars) : trimChars chars = chars := by
  have kept : chars.dropWhile isBlankChar = chars := by
    cases chars with
    | nil => rfl
    | cons first rest => exact List.dropWhile_cons_of_neg (by simp [tight.first first rfl])
  rw [trimChars_eq_rdropWhile, kept, List.rdropWhile_eq_self_iff]
  intro nonempty blank
  rw [tight.last _ (List.getLast?_eq_some_getLast nonempty)] at blank
  cases blank

/-- Trimming leaves the one text without white space at its ends from which the given text differs
by white space at the ends. -/
theorem trim_eq_iff {text core : String} :
    trim text = core ↔ IsTight core.toList ∧ ∃ before after : String,
      isBlank before = true ∧ isBlank after = true ∧ text = before ++ core ++ after := by
  simp only [← String.toList_inj, toList_trim, isBlank, List.all_eq_true, String.toList_append]
  constructor
  · intro trimmed
    obtain ⟨before, after, blankBefore, blankAfter, whole⟩ := exists_padding_trimChars text.toList
    rw [trimmed] at whole
    exact ⟨trimmed ▸ isTight_trimChars text.toList, String.ofList before, String.ofList after,
      by simpa using blankBefore, by simpa using blankAfter, by simpa using whole⟩
  · rintro ⟨tight, before, after, blankBefore, blankAfter, whole⟩
    rw [whole, trimChars_append blankBefore blankAfter, trimChars_of_isTight tight]

theorem trim_append {before after : String} (blankBefore : isBlank before = true)
    (blankAfter : isBlank after = true) (text : String) :
    trim (before ++ text ++ after) = trim text := by
  rw [isBlank, List.all_eq_true] at blankBefore blankAfter
  simp only [← String.toList_inj, toList_trim, String.toList_append,
    trimChars_append blankBefore blankAfter]

end Trimming

/-!
## Letter case
-/

section Case

/-- No letter of ASCII is white space. -/
theorem isBlankChar_of_isAlpha {char : Char} (letter : char.isAlpha = true) :
    isBlankChar char = false := by
  rw [Bool.eq_false_iff]
  intro blank
  simp only [Char.isAlpha, Char.isUpper, Char.isLower, UInt32.le_iff_toNat_le, Char.toNat_val,
    Bool.or_eq_true, Bool.and_eq_true, decide_eq_true_eq] at letter
  change 65 ≤ char.toNat ∧ char.toNat ≤ 90 ∨ 97 ≤ char.toNat ∧ char.toNat ≤ 122 at letter
  simp only [isBlankChar, blankRanges, List.any_cons, List.any_nil, Bool.or_eq_true,
    Bool.and_eq_true, decide_eq_true_eq, Bool.or_false] at blank
  omega

theorem isBlankChar_toLower (char : Char) : isBlankChar char.toLower = isBlankChar char := by
  by_cases upper : char.isUpper = true
  · have letter : char.isAlpha = true := by simp [Char.isAlpha, upper]
    have lowered : char.toLower.isAlpha = true := by simp [letter]
    rw [isBlankChar_of_isAlpha letter, isBlankChar_of_isAlpha lowered]
  · rw [Char.toLower_eq_of_not_isUpper upper]

@[simp] theorem toList_toLower (text : String) :
    text.toLower.toList = text.toList.map Char.toLower :=
  String.toList_map

theorem trimChars_map_toLower (chars : List Char) :
    trimChars (chars.map Char.toLower) = (trimChars chars).map Char.toLower := by
  have same : isBlankChar ∘ Char.toLower = isBlankChar := funext isBlankChar_toLower
  simp only [trimChars, List.dropWhile_map, ← List.map_reverse, same]

theorem trim_toLower (text : String) : trim text.toLower = (trim text).toLower := by
  rw [← String.toList_inj, toList_trim, toList_toLower, toList_toLower, toList_trim,
    trimChars_map_toLower]

theorem Recased.toLower_eq {text recased : String} (changed : Recased text recased) :
    recased.toLower = text.toLower := by
  rw [← String.toList_inj, toList_toLower, toList_toLower]
  unfold Recased at changed
  generalize text.toList = chars, recased.toList = others at changed
  induction changed with
  | nil => rfl
  | cons letter _ ih =>
    rw [List.map_cons, List.map_cons, ih]
    rcases letter with rfl | rfl | rfl
    · rfl
    · rw [Char.toLower_toLower_eq_toLower]
    · rw [Char.toLower_toUpper_eq_toLower]

theorem recased_toLower (text : String) : Recased text.toLower text := by
  rw [Recased, toList_toLower, List.forall₂_map_left_iff]
  refine List.forall₂_same.mpr fun char _ => ?_
  by_cases upper : char.isUpper = true
  · have same : char = char.toLower.toUpper := by
      rw [Char.toUpper_toLower_eq_toUpper,
        Char.toUpper_eq_of_not_isLower (Char.not_isLower_of_isUpper upper)]
    exact .inr (.inr same)
  · exact .inl (Char.toLower_eq_of_not_isUpper upper).symm

end Case

/-- What is left of a variant when white space and case are taken away. -/
theorem IsVariant.toLower_trim_eq {text variant : String} (varies : IsVariant text variant) :
    (trim variant).toLower = (trim text).toLower := by
  obtain ⟨before, recased, after, blankBefore, blankAfter, changed, rfl⟩ := varies
  rw [trim_append blankBefore blankAfter, ← trim_toLower, changed.toLower_eq, trim_toLower]

theorem isVariant_toLower_trim (text : String) : IsVariant (trim text).toLower text := by
  obtain ⟨-, before, after, blankBefore, blankAfter, whole⟩ := trim_eq_iff.mp (Eq.refl (trim text))
  exact ⟨before, trim text, after, blankBefore, blankAfter, recased_toLower _, whole⟩

end BoundQuery.Text
