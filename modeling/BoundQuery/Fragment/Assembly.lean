import BoundQuery.Fragment

/-!
# Assembly

An assembly collects pieces, some of them grouped and some of them absent, and finishes as one
fragment with a separator between the texts. Grouping has no effect on the result; it only lets
several pieces be handed on as one.
-/

set_option autoImplicit false

namespace BoundQuery

inductive Piece where
  | text (text : String)
  | fragment (fragment : Fragment)
  | group (pieces : List Piece)

namespace Piece

@[elab_as_elim, induction_eliminator]
theorem induction {motive : Piece → Prop}
    (text : ∀ text, motive (.text text))
    (fragment : ∀ fragment, motive (.fragment fragment))
    (group : ∀ pieces, (∀ piece ∈ pieces, motive piece) → motive (.group pieces))
    (piece : Piece) : motive piece :=
  Piece.rec (motive_1 := motive) (motive_2 := fun pieces => ∀ piece ∈ pieces, motive piece)
    text fragment group (fun _ member => nomatch member)
    (fun _ _ headHolds tailHolds => List.forall_mem_cons.mpr ⟨headHolds, tailHolds⟩) piece

mutual

def addTo (separator : String) (written : Fragment) : Piece → Fragment
  | .text content => written.join separator (.ofText content)
  | .fragment part => written.join separator part
  | .group pieces => addAllTo separator written pieces

def addAllTo (separator : String) (written : Fragment) : List Piece → Fragment
  | [] => written
  | piece :: rest => addAllTo separator (addTo separator written piece) rest

end

mutual

/-- The fragments in a piece from left to right, with all grouping removed. -/
def leaves : Piece → List Fragment
  | .text content => [.ofText content]
  | .fragment part => [part]
  | .group pieces => leavesOf pieces

def leavesOf : List Piece → List Fragment
  | [] => []
  | piece :: rest => leaves piece ++ leavesOf rest

end

mutual

def equals : Piece → Piece → Bool
  | .text left, .text right => left == right
  | .fragment left, .fragment right => left == right
  | .group left, .group right => equalsAll left right
  | _, _ => false

def equalsAll : List Piece → List Piece → Bool
  | [], [] => true
  | left :: lefts, right :: rights => equals left right && equalsAll lefts rights
  | _, _ => false

end

instance : BEq Piece := ⟨equals⟩

@[simp] theorem addTo_text (separator : String) (written : Fragment) (text : String) :
    addTo separator written (.text text) = written.join separator (.ofText text) := rfl

@[simp] theorem addTo_fragment (separator : String) (written fragment : Fragment) :
    addTo separator written (.fragment fragment) = written.join separator fragment := rfl

@[simp] theorem addTo_group (separator : String) (written : Fragment) (pieces : List Piece) :
    addTo separator written (.group pieces) = addAllTo separator written pieces := rfl

@[simp] theorem addAllTo_nil (separator : String) (written : Fragment) :
    addAllTo separator written [] = written := rfl

@[simp] theorem addAllTo_cons (separator : String) (written : Fragment) (piece : Piece)
    (rest : List Piece) :
    addAllTo separator written (piece :: rest) =
      addAllTo separator (addTo separator written piece) rest := rfl

@[simp] theorem leaves_text (text : String) : leaves (.text text) = [.ofText text] := rfl

@[simp] theorem leaves_fragment (fragment : Fragment) : leaves (.fragment fragment) = [fragment] :=
  rfl

@[simp] theorem leaves_group (pieces : List Piece) : leaves (.group pieces) = leavesOf pieces := rfl

@[simp] theorem leavesOf_nil : leavesOf [] = [] := rfl

@[simp] theorem leavesOf_cons (piece : Piece) (rest : List Piece) :
    leavesOf (piece :: rest) = leaves piece ++ leavesOf rest := rfl

theorem leavesOf_eq_flatMap (pieces : List Piece) : leavesOf pieces = pieces.flatMap leaves := by
  induction pieces with
  | nil => rfl
  | cons piece rest ih => simp [ih]

theorem leavesOf_append (first second : List Piece) :
    leavesOf (first ++ second) = leavesOf first ++ leavesOf second := by
  simp [leavesOf_eq_flatMap]

theorem leavesOf_map_fragment (fragments : List Fragment) :
    leavesOf (fragments.map fragment) = fragments := by
  induction fragments with
  | nil => rfl
  | cons first rest ih => simp [ih]

/-- Grouping changes nothing: pieces add what their leaves add. -/
theorem addAllTo_eq_join (separator : String) (written : Fragment) (pieces : List Piece) :
    addAllTo separator written pieces =
      written.join separator (.joinAll separator (leavesOf pieces)) := by
  have addTo_eq (piece : Piece) : ∀ written, addTo separator written piece =
      written.join separator (.joinAll separator piece.leaves) := by
    induction piece with
    | text content => simp
    | fragment part => simp
    | group members ih =>
      intro written
      simp only [addTo_group, leaves_group]
      induction members generalizing written with
      | nil => simp
      | cons member rest restIH =>
        rw [addAllTo_cons, ih member List.mem_cons_self,
          restIH fun other isOther => ih other (List.mem_cons_of_mem _ isOther), leavesOf_cons,
          Fragment.joinAll_append, Fragment.join_assoc]
  exact addTo_eq (.group pieces) written

end Piece

structure Assembly where
  separator : String := " "
  pieces : List Piece := []

namespace Assembly

def push (assembly : Assembly) (piece : Piece) : Assembly :=
  { assembly with pieces := assembly.pieces ++ [piece] }

def push? (assembly : Assembly) (piece : Option Piece) : Assembly :=
  piece.elim assembly assembly.push

def append (assembly : Assembly) (pieces : List Piece) : Assembly :=
  { assembly with pieces := assembly.pieces ++ pieces }

def finish (assembly : Assembly) : Fragment :=
  Piece.addAllTo assembly.separator .empty assembly.pieces

@[simp] theorem push?_none (assembly : Assembly) : assembly.push? none = assembly := rfl

@[simp] theorem push?_some (assembly : Assembly) (piece : Piece) :
    assembly.push? (some piece) = assembly.push piece := rfl

theorem push_eq_append (assembly : Assembly) (piece : Piece) :
    assembly.push piece = assembly.append [piece] := rfl

@[simp] theorem append_append (assembly : Assembly) (first second : List Piece) :
    (assembly.append first).append second = assembly.append (first ++ second) := by
  simp [append]

theorem finish_eq_joinAll (assembly : Assembly) :
    assembly.finish = .joinAll assembly.separator (Piece.leavesOf assembly.pieces) := by
  rw [finish, Piece.addAllTo_eq_join, Fragment.join_empty_left]

end Assembly

def Fragment.ofPieces (separator : String) (pieces : List Piece) : Fragment :=
  Assembly.finish { separator, pieces }

theorem Fragment.ofPieces_eq_joinAll (separator : String) (pieces : List Piece) :
    Fragment.ofPieces separator pieces = .joinAll separator (Piece.leavesOf pieces) :=
  Assembly.finish_eq_joinAll _

end BoundQuery
