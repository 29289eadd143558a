import BoundQuery.Fragment.Assembly

/-!
# Composition of assemblies

An assembly may be finished in parts. All that a run of neighbouring pieces adds is the fragment it
would finish as alone with the same separator, however deep in groups it stands. Data count as much
as text here: a run without text may still not be left out.
-/

set_option autoImplicit false

namespace BoundQuery

/-- Where a run of neighbouring pieces stands: between others, inside any number of groups. -/
inductive Place where
  | among (before after : List Piece)
  | inside (before : List Piece) (inner : Place) (after : List Piece)

def Place.fill : Place → List Piece → List Piece
  | .among before after, run => before ++ run ++ after
  | .inside before inner after, run => before ++ [.group (inner.fill run)] ++ after

namespace Piece

/-- The piece has neither text nor data. A group may be silent with members, or for want of any. -/
def isSilent (piece : Piece) : Bool :=
  piece.leaves.all fun leaf => leaf.text == "" && leaf.binds.isEmpty

/-- The pieces of a run that are not silent. Those inside groups stay as they are. -/
def heard (run : List Piece) : List Piece :=
  run.filter fun piece => !piece.isSilent

end Piece

namespace Assembly

/-- One way to hand pieces to an assembly. -/
inductive Feed where
  | push (piece : Piece)
  | push? (piece : Option Piece)
  | append (pieces : List Piece)

def Feed.pieces : Feed → List Piece
  | .push piece => [piece]
  | .push? piece => piece.toList
  | .append pieces => pieces

def feed (assembly : Assembly) : Feed → Assembly
  | .push piece => assembly.push piece
  | .push? piece => assembly.push? piece
  | .append pieces => assembly.append pieces

def feedAll (assembly : Assembly) (feeds : List Feed) : Assembly :=
  feeds.foldl feed assembly

theorem feed_eq_append (assembly : Assembly) (feed : Feed) :
    assembly.feed feed = assembly.append feed.pieces := by
  cases feed with
  | push piece => exact assembly.push_eq_append piece
  | push? piece =>
    cases piece with
    | none => simp [Assembly.feed, Feed.pieces, append]
    | some piece => exact assembly.push_eq_append piece
  | append pieces => rfl

/-- However they are handed over, pieces end up in the order in which they came. -/
theorem feedAll_eq_append (assembly : Assembly) (feeds : List Feed) :
    assembly.feedAll feeds = assembly.append (feeds.flatMap Feed.pieces) := by
  induction feeds generalizing assembly with
  | nil => simp [feedAll, append]
  | cons first rest ih =>
    have fed : assembly.feedAll (first :: rest) = (assembly.feed first).feedAll rest := rfl
    rw [fed, ih, feed_eq_append, append_append, List.flatMap_cons]

end Assembly

namespace Fragment

variable (separator : String)

theorem ofPieces_append (first second : List Piece) :
    ofPieces separator (first ++ second) =
      join separator (ofPieces separator first) (ofPieces separator second) := by
  simp only [ofPieces_eq_joinAll, Piece.leavesOf_append, joinAll_append]

theorem ofPieces_group (run : List Piece) :
    ofPieces separator [.group run] = ofPieces separator run := by
  simp [ofPieces_eq_joinAll]

theorem ofPieces_fragment (fragment : Fragment) :
    ofPieces separator [.fragment fragment] = fragment := by
  simp [ofPieces_eq_joinAll]

theorem ofPieces_of_isSilent {piece : Piece} (silent : piece.isSilent = true) :
    ofPieces separator [piece] = empty := by
  have leaves : ∀ leaf ∈ Piece.leavesOf [piece], leaf = empty := by
    intro leaf isLeaf
    have isPieceLeaf : leaf ∈ piece.leaves := by simpa using isLeaf
    obtain ⟨noText, noData⟩ : leaf.text = "" ∧ leaf.binds = [] := by
      simpa using List.all_eq_true.mp silent leaf isPieceLeaf
    cases leaf
    subst noText noData
    rfl
  rw [ofPieces_eq_joinAll]
  exact joinAll_eq_empty separator leaves

/-- Silent pieces of a run may be left out, wherever in the run they are. -/
theorem ofPieces_heard (run : List Piece) :
    ofPieces separator (Piece.heard run) = ofPieces separator run := by
  induction run with
  | nil => rfl
  | cons piece rest ih =>
    have whole := ofPieces_append separator [piece] rest
    rw [List.singleton_append] at whole
    cases silent : piece.isSilent with
    | true =>
      have left : Piece.heard (piece :: rest) = Piece.heard rest := by
        simp [Piece.heard, silent]
      rw [left, ih, whole, ofPieces_of_isSilent separator silent, join_empty_left]
    | false =>
      have left : Piece.heard (piece :: rest) = [piece] ++ Piece.heard rest := by
        simp [Piece.heard, silent]
      rw [left, ofPieces_append, ih, whole]

/-- Runs that finish as the same fragment may be exchanged at any depth. -/
theorem ofPieces_fill_congr (place : Place) {run other : List Piece}
    (same : ofPieces separator run = ofPieces separator other) :
    ofPieces separator (place.fill run) = ofPieces separator (place.fill other) := by
  induction place with
  | among before after =>
    simp only [Place.fill, ofPieces_append, same]
  | inside before inner after ih =>
    simp only [Place.fill, ofPieces_append, ofPieces_group, ih]

end Fragment

/-- An assembly finishes as the texts of its leaves that are not empty, with the separator between
them, and the data of all its leaves, in the order of the tree. So at any depth a run may be
grouped, finished beforehand, or rid of silent pieces, and it does not matter in which portions the
pieces were handed over. -/
theorem Assembly.finish_composes (separator : String) :
    (∀ pieces : List Piece, Fragment.ofPieces separator pieces =
      ⟨separator.intercalate (((Piece.leavesOf pieces).map Fragment.text).filter
          fun text => decide (text ≠ "")),
        (Piece.leavesOf pieces).flatMap Fragment.binds⟩) ∧
    (∀ (place : Place) (run : List Piece),
      Fragment.ofPieces separator (place.fill [.group run]) =
          Fragment.ofPieces separator (place.fill run) ∧
        Fragment.ofPieces separator (place.fill [.fragment (.ofPieces separator run)]) =
          Fragment.ofPieces separator (place.fill run) ∧
        ∀ other, Piece.heard other = Piece.heard run →
          Fragment.ofPieces separator (place.fill other) =
            Fragment.ofPieces separator (place.fill run)) ∧
    ∀ (pieces : List Piece) (feeds : List Feed),
      (feedAll { separator, pieces } feeds).finish =
        Fragment.ofPieces separator (pieces ++ feeds.flatMap Feed.pieces) := by
  refine ⟨?leaves, ?runs, ?portions⟩
  case leaves =>
    intro pieces
    rw [Fragment.ofPieces_eq_joinAll, Fragment.joinAll_eq]
  case runs =>
    intro place run
    refine ⟨Fragment.ofPieces_fill_congr separator place (Fragment.ofPieces_group separator run),
      Fragment.ofPieces_fill_congr separator place (Fragment.ofPieces_fragment separator _), ?_⟩
    intro other sameHeard
    apply Fragment.ofPieces_fill_congr
    rw [← Fragment.ofPieces_heard, sameHeard, Fragment.ofPieces_heard]
  case portions =>
    intro pieces feeds
    rw [feedAll_eq_append]
    rfl

/-- A place two groups deep, after a datum that has no text. -/
def Place.buried : Place :=
  .inside [.text "a"] (.inside [] (.among [.fragment ⟨"", [.int 1]⟩] [.text "d"]) [.group []]) []

def Piece.buriedRun : List Piece :=
  [.fragment ⟨"", [.int 2]⟩, .text "b", .group [.fragment ⟨"c = ?", [.int 3]⟩]]

/-- The run with silent pieces before, between and after its own. -/
def Piece.paddedRun : List Piece :=
  [.group [.text "", .group []], .fragment ⟨"", [.int 2]⟩, .text "", .text "b",
    .group [.fragment ⟨"c = ?", [.int 3]⟩], .fragment .empty]

theorem Assembly.finish_composes_buried :
    Piece.heard Piece.paddedRun = Piece.heard Piece.buriedRun ∧
      Fragment.ofPieces ", " (Place.buried.fill Piece.paddedRun) =
        ⟨"a, b, c = ?, d", [.int 1, .int 2, .int 3]⟩ := by
  obtain ⟨-, runs, -⟩ := Assembly.finish_composes ", "
  obtain ⟨-, -, padded⟩ := runs .buried Piece.buriedRun
  have sameHeard : Piece.heard Piece.paddedRun = Piece.heard Piece.buriedRun := rfl
  exact ⟨sameHeard, (padded _ sameHeard).trans rfl⟩

end BoundQuery
