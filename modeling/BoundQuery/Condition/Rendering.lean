import BoundQuery.Condition.Fault
import BoundQuery.Fragment.Assembly

/-!
# Rendering of conditions

A condition is rendered as a fragment by assembling its words and members with spaces. Every group
gets one pair of parentheses, the outermost one included; a negation gets none. Members are
rendered from left to right, and the first fault met is the one reported.
-/

set_option autoImplicit false

namespace BoundQuery

/-- The fragment of one slot: verbatim text, or a placeholder with its datum. -/
def Term.fragment (term : Term) : Fragment :=
  ⟨term.slotText, term.bound?.toList⟩

namespace Condition

def negationWord : String := "not"

/-- The members of a group with its word between them. -/
def alternate (connective : Connective) (members : List Fragment) : List Piece :=
  (members.map Piece.fragment).intersperse (.text connective.word)

mutual

def render : Condition → Except ConditionFault Fragment
  | .compare comparator column right =>
    if Text.isBlank column then .error (.blankColumn comparator)
    else if right.isBlankRaw then .error (.blankRaw column comparator)
    else .ok (.ofPieces " " [.text column, .text comparator.symbol, .fragment right.fragment])
  | .group connective members =>
    if members.isEmpty then .error (.emptyGroup connective)
    else (renderAll members).map fun fragments =>
      (Fragment.ofPieces " " (alternate connective fragments)).parenthesized
  | .negation negated =>
    (render negated).map fun fragment =>
      .ofPieces " " [.text negationWord, .fragment fragment]

def renderAll : List Condition → Except ConditionFault (List Fragment)
  | [] => .ok []
  | member :: rest =>
    match render member with
    | .error fault => .error fault
    | .ok fragment => (renderAll rest).map (fragment :: ·)

end

@[simp] theorem renderAll_nil : renderAll [] = .ok [] := rfl

theorem render_negation (negated : Condition) :
    render (.negation negated) = (render negated).map fun fragment =>
      .ofPieces " " [.text negationWord, .fragment fragment] := rfl

@[simp] theorem render_group_nil (connective : Connective) :
    render (.group connective []) = .error (.emptyGroup connective) := rfl

theorem render_group_cons (connective : Connective) (member : Condition) (rest : List Condition) :
    render (.group connective (member :: rest)) =
      (renderAll (member :: rest)).map fun fragments =>
        (Fragment.ofPieces " " (alternate connective fragments)).parenthesized := rfl

end Condition

end BoundQuery
