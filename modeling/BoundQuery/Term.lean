import BoundQuery.Datum
import BoundQuery.Text.Blank

/-!
# Terms

A term is the right side of a comparison or one of the values to insert. It is either written as a
placeholder with a datum bound to it, or written as it stands with nothing bound.
-/

set_option autoImplicit false

namespace BoundQuery

inductive Term where
  /-- A value in the place of a placeholder; a text that is itself a placeholder is normalised. -/
  | literal (datum : Datum)
  /-- A value for a placeholder, bound as it is. -/
  | bind (datum : Datum)
  | raw (text : String)

namespace Term

def placeholder : String := "?"

/-- The texts by which a literal says that it is a placeholder already. -/
def placeholderTexts : List String := [placeholder, "%@"]

/-- The datum of a literal: a placeholder text becomes the placeholder mark. -/
def normalise (datum : Datum) : Datum :=
  match datum.text? with
  | some text => if placeholderTexts.contains text then .text placeholder else datum
  | none => datum

def bound? : Term → Option Datum
  | .literal datum => some (normalise datum)
  | .bind datum => some datum
  | .raw _ => none

def isRaw : Term → Bool
  | .raw _ => true
  | _ => false

def isBlankRaw : Term → Bool
  | .raw text => Text.isBlank text
  | _ => false

def slotText : Term → String
  | .raw text => text
  | _ => placeholder

def equals : Term → Term → Bool
  | .literal left, .literal right => left == right
  | .bind left, .bind right => left == right
  | .raw left, .raw right => left == right
  | _, _ => false

instance : BEq Term := ⟨equals⟩

/-- A value without a mark is bound as it is. -/
def ofValue {α : Type} [ToDatum α] (value : α) : Term :=
  .bind (toDatum value)

instance {α : Type} [ToDatum α] : CoeOut α Term := ⟨ofValue⟩

theorem bound?_eq_none_iff {term : Term} : term.bound? = none ↔ term.isRaw = true := by
  cases term <;> simp [bound?, isRaw]

theorem isRaw_of_isBlankRaw {term : Term} (blank : term.isBlankRaw = true) :
    term.isRaw = true := by
  cases term <;> simp_all [isBlankRaw, isRaw]

/-- Only a blank slot could be empty. -/
theorem slotText_ne_empty {term : Term} (written : term.isBlankRaw = false) :
    term.slotText ≠ "" := by
  cases term with
  | literal _ => simp [slotText, placeholder]
  | bind _ => simp [slotText, placeholder]
  | raw text =>
    rintro rfl
    simp [isBlankRaw] at written

end Term

end BoundQuery
