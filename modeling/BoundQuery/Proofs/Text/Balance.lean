import Mathlib

/-!
# Balanced texts

A text is balanced when it closes exactly the parentheses that it opens, and none before it is
open. A part of such a text may stand inside parentheses, so reading is also described from one
depth to another. Only the two kinds of parentheses count; every other character is passed over.
-/

set_option autoImplicit false

namespace BoundQuery.Text

/-- No beginning of the text closes more parentheses than it opens, and neither kind is left over
at the end. -/
structure Balanced (text : String) : Prop where
  floor : ∀ part, part <+: text.toList → part.count ')' ≤ part.count '('
  total : text.toList.count '(' = text.toList.count ')'

/-- The parenthesis that opens the text is closed by its last character and by no earlier one. -/
def Enclosed (text : String) : Prop :=
  ∀ part, part <+: text.toList → part ≠ [] → part ≠ text.toList →
    part.count ')' < part.count '('

/-- Read where `before` parentheses are open, the text closes none that is not open, and leaves
`after` of them open. -/
structure Nests (before after : Nat) (text : String) : Prop where
  floor : ∀ part, part <+: text.toList → part.count ')' ≤ before + part.count '('
  total : before + text.toList.count '(' = after + text.toList.count ')'

/-- Texts that are read one after the other, each from the depth at which the one before ends. -/
inductive NestsEach : Nat → Nat → List String → Prop where
  | nil {depth : Nat} : NestsEach depth depth []
  | cons {before between after : Nat} {text : String} {rest : List String} :
      Nests before between text → NestsEach between after rest →
      NestsEach before after (text :: rest)

theorem balanced_iff_inits {text : String} :
    Balanced text ↔
      (∀ part ∈ text.toList.inits, part.count ')' ≤ part.count '(') ∧
        text.toList.count '(' = text.toList.count ')' := by
  constructor
  · intro balanced
    exact ⟨fun part isInit => balanced.floor part ((List.mem_inits _ _).mp isInit), balanced.total⟩
  · rintro ⟨floor, total⟩
    exact ⟨fun part isPrefix => floor part ((List.mem_inits _ _).mpr isPrefix), total⟩

instance (text : String) : Decidable (Balanced text) :=
  decidable_of_iff _ balanced_iff_inits.symm

namespace Nests

variable {before between after : Nat} {left right text : String}

theorem append (first : Nests before between left) (second : Nests between after right) :
    Nests before after (left ++ right) where
  floor := by
    intro part isPrefix
    obtain ⟨rest, whole⟩ := isPrefix
    rw [String.toList_append] at whole
    rcases List.append_eq_append_iff.mp whole with ⟨more, leftChars, -⟩ | ⟨more, rfl, rightChars⟩
    · exact first.floor part ⟨more, leftChars.symm⟩
    · have closed := second.floor more ⟨rest, rightChars.symm⟩
      have reached := first.total
      rw [List.count_append, List.count_append]
      omega
  total := by
    have reached := first.total
    have ended := second.total
    rw [String.toList_append, List.count_append, List.count_append]
    omega

/-- A text without parentheses changes no depth. -/
theorem plain (depth : Nat) (noOpening : '(' ∉ text.toList) (noClosing : ')' ∉ text.toList) :
    Nests depth depth text where
  floor := by
    intro part isPrefix
    have noneClosed := List.count_eq_zero.mpr fun member => noClosing (isPrefix.subset member)
    omega
  total := by
    rw [List.count_eq_zero.mpr noOpening, List.count_eq_zero.mpr noClosing]

theorem opening (depth : Nat) : Nests depth (depth + 1) "(" where
  floor := by
    intro part isPrefix
    have noneClosed := List.count_eq_zero.mpr fun member =>
      absurd (isPrefix.subset member) (by decide : ')' ∉ "(".toList)
    omega
  total := rfl

theorem closing (depth : Nat) : Nests (depth + 1) depth ")" where
  floor := by
    intro part isPrefix
    have oneClosed : part.count ')' ≤ 1 := isPrefix.sublist.count_le ')'
    omega
  total := rfl

end Nests

namespace Balanced

variable {left right text : String}

theorem iff_nests : Balanced text ↔ Nests 0 0 text := by
  constructor
  · rintro ⟨floor, total⟩
    exact ⟨by simpa using floor, by simpa using total⟩
  · rintro ⟨floor, total⟩
    exact ⟨by simpa using floor, by simpa using total⟩

/-- A balanced text can stand at every depth. -/
theorem nests (balanced : Balanced text) (depth : Nat) : Nests depth depth text where
  floor := by
    intro part isPrefix
    have closed := balanced.floor part isPrefix
    omega
  total := by rw [balanced.total]

theorem plain (noOpening : '(' ∉ text.toList) (noClosing : ')' ∉ text.toList) : Balanced text :=
  iff_nests.mpr (.plain 0 noOpening noClosing)

theorem append (first : Balanced left) (second : Balanced right) : Balanced (left ++ right) :=
  iff_nests.mpr ((first.nests 0).append (second.nests 0))

theorem parenthesized (balanced : Balanced text) : Balanced ("(" ++ text ++ ")") := by
  have inner := (Nests.opening 0).append (balanced.nests 1)
  exact iff_nests.mpr (inner.append (.closing 0))

/-- Around a balanced text the two parentheses belong to each other. -/
theorem enclosed (balanced : Balanced text) : Enclosed ("(" ++ text ++ ")") := by
  intro part isPrefix notEmpty notWhole
  have chars : ("(" ++ text ++ ")").toList = '(' :: (text.toList ++ [')']) := by
    simp
  rw [chars] at isPrefix notWhole
  obtain ⟨rest, rfl, isRest⟩ := (List.prefix_cons_iff.mp isPrefix).resolve_left notEmpty
  have within : rest <+: text.toList := by
    rcases List.prefix_concat_iff.mp isRest with whole | within
    · exact absurd (congrArg ('(' :: ·) whole) notWhole
    · exact within
  have closed := balanced.floor rest within
  rw [List.count_cons_self, List.count_cons_of_ne (by decide)]
  omega

end Balanced

namespace NestsEach

variable {before between after : Nat} {texts moreTexts : List String}

theorem append (first : NestsEach before between texts)
    (second : NestsEach between after moreTexts) : NestsEach before after (texts ++ moreTexts) := by
  induction first with
  | nil => exact second
  | cons nests _ ih => exact .cons nests (ih second)

theorem singleton {text : String} (nests : Nests before after text) :
    NestsEach before after [text] :=
  .cons nests .nil

theorem level (balanced : ∀ text ∈ texts, Balanced text) (depth : Nat) :
    NestsEach depth depth texts := by
  induction texts with
  | nil => exact .nil
  | cons text rest ih =>
    obtain ⟨textBalanced, restBalanced⟩ := List.forall_mem_cons.mp balanced
    exact .cons (textBalanced.nests depth) (ih restBalanced)

/-- Separators without parentheses may be put between the texts. -/
theorem intercalate {separator : String} (noOpening : '(' ∉ separator.toList)
    (noClosing : ')' ∉ separator.toList) (each : NestsEach before after texts) :
    Nests before after (separator.intercalate texts) := by
  induction each with
  | @nil depth => exact .plain depth (by simp) (by simp)
  | @cons before between after text rest nests others ih =>
    cases rest with
    | nil =>
      cases others
      simpa using nests
    | cons next more =>
      rw [String.intercalate_cons_cons]
      exact (nests.append (.plain between noOpening noClosing)).append ih

end NestsEach

/-- The characters of joined texts are those of the texts, if the separator has none of them. -/
theorem count_intercalate {separator : String} {char : Char} (notIn : char ∉ separator.toList)
    (texts : List String) :
    (separator.intercalate texts).toList.count char =
      (texts.map fun text => text.toList.count char).sum := by
  induction texts with
  | nil => simp
  | cons text rest ih =>
    cases rest with
    | nil => simp
    | cons next more =>
      have noneBetween := List.count_eq_zero.mpr notIn
      rw [String.intercalate_cons_cons, String.toList_append, String.toList_append,
        List.count_append, List.count_append, noneBetween, ih]
      simp

end BoundQuery.Text
