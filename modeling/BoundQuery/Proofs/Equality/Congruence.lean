import BoundQuery.Proofs.Equality.Values
import BoundQuery.Proofs.Statement.Noninterference

/-!
# Equal queries are written alike

Writing cannot tell equal queries apart, although they need not be the same: it gives one error or
one text for both, with data that are equal in pairs. Equal pieces are joined to equal fragments
for the same reason. A literal is normalised by its text, and texts are equal only if they are the
same.
-/

set_option autoImplicit false

namespace BoundQuery

/-- The sign of a zero does not count. -/
theorem Double.beq_of_isZero {left right : Double} (leftZero : left.isZero = true)
    (rightZero : right.isZero = true) : (left == right) = true := by
  have number {zero : Double} (isZero : zero.isZero = true) : zero.isNaN = false := by
    have magnitude : zero.magnitude = 0 := beq_iff_eq.mp isZero
    simp [isNaN, magnitude]
  simp [beq_eq, equals, number leftZero, number rightZero, leftZero, rightZero]

theorem Datum.text?_eq_of_equals {left right : Datum} (same : Equals left right) :
    left.text? = right.text? := by
  cases left <;> cases right <;> simp_all [Equals, beq_eq, equals, text?]

namespace Term

variable {left right : Term}

theorem alike_of_equals (same : Equals left right) : Alike left right := by
  cases left with
  | literal datum =>
    obtain ⟨inner, rfl, -⟩ := equals_literal_iff.mp same
    exact .bound rfl rfl
  | bind datum =>
    obtain ⟨inner, rfl, -⟩ := equals_bind_iff.mp same
    exact .bound rfl rfl
  | raw text =>
    obtain rfl := equals_raw_iff.mp same
    exact .raw

theorem normalise_equals {left right : Datum} (same : Equals left right) :
    Equals (normalise left) (normalise right) := by
  unfold normalise
  rw [Datum.text?_eq_of_equals same]
  cases right.text? with
  | none => exact same
  | some text =>
    dsimp only
    split
    · rfl
    · exact same

theorem bound?_rel (same : Equals left right) : Option.Rel Equals left.bound? right.bound? := by
  cases left with
  | literal datum =>
    obtain ⟨inner, rfl, sameDatum⟩ := equals_literal_iff.mp same
    exact .some (normalise_equals sameDatum)
  | bind datum =>
    obtain ⟨inner, rfl, sameDatum⟩ := equals_bind_iff.mp same
    exact .some sameDatum
  | raw text =>
    obtain rfl := equals_raw_iff.mp same
    exact .none

end Term

namespace Condition

/-- Equal conditions are the same tree, with terms that are equal in pairs. -/
theorem corresponds_of_equals {left right : Condition} (same : Equals left right) :
    Corresponds Equals (fun _ left right => left = right) left right := by
  induction left generalizing right with
  | compare comparator column term =>
    obtain ⟨inner, rfl, sameTerm⟩ := equals_compare_iff.mp same
    exact .compare sameTerm
  | group connective members ih =>
    obtain ⟨inner, rfl, sameMembers⟩ := equals_group_iff.mp same
    have members := ((List.forall₂_and_left _ _).mpr ⟨ih, sameMembers⟩).imp
      fun _ _ both => both.1 both.2
    exact .group rfl members
  | negation negated ih =>
    obtain ⟨inner, rfl, sameNegated⟩ := equals_negation_iff.mp same
    exact .negation (ih sameNegated)

/-- Terms that are equal may be exchanged at any place of a condition. -/
theorem equals_of_corresponds {left right : Condition}
    (corresponds : Corresponds Equals (fun _ left right => left = right) left right) :
    Equals left right := by
  refine corresponds.induction ?compare ?group ?negation
  case compare =>
    intro comparator column left right same
    exact equals_compare_iff.mpr ⟨right, rfl, same⟩
  case group =>
    intro left right lefts rights sameWord _ members
    rw [← sameWord]
    exact equals_group_iff.mpr ⟨rights, rfl, members⟩
  case negation =>
    intro left right same
    exact equals_negation_iff.mpr ⟨right, rfl, same⟩

theorem alike_of_equals {left right : Condition} (same : Equals left right) : left.Alike right := by
  have corresponds := corresponds_of_equals same
  exact corresponds.of_terms (corresponds.terms_forall₂.imp fun _ _ => Term.alike_of_equals)

end Condition

namespace Query

variable {left right : Query}

theorem values_of_equals (same : Equals left right) :
    List.Forall₂ Equals left.values right.values := by
  obtain ⟨parts, rfl, sameValues, -⟩ := equals_iff.mp same
  exact sameValues

theorem filter_of_equals (same : Equals left right) :
    Option.Rel Equals left.filter right.filter := by
  obtain ⟨parts, rfl, -, sameFilter⟩ := equals_iff.mp same
  exact sameFilter

theorem alike_of_equals (same : Equals left right) : left.Alike right := by
  have filters : Option.Rel Condition.Alike left.filter right.filter := by
    have sameFilter := filter_of_equals same
    generalize left.filter = leftFilter, right.filter = rightFilter at sameFilter ⊢
    cases sameFilter with
    | none => exact .none
    | some sameCondition => exact .some (Condition.alike_of_equals sameCondition)
  have values := (values_of_equals same).imp fun _ _ => Term.alike_of_equals
  obtain ⟨parts, rfl, -, -⟩ := equals_iff.mp same
  exact ⟨rfl, rfl, rfl, values, filters, rfl, rfl, rfl⟩

theorem filterTerms_of_equals (same : Equals left right) :
    List.Forall₂ Equals left.filterTerms right.filterTerms := by
  have sameFilter := filter_of_equals same
  unfold filterTerms
  generalize left.filter = leftFilter, right.filter = rightFilter at sameFilter ⊢
  cases sameFilter with
  | none => exact .nil
  | some sameCondition => exact (Condition.corresponds_of_equals sameCondition).terms_forall₂

theorem data_of_equals (same : Equals left right) : List.Forall₂ Equals left.data right.data := by
  have terms : List.Forall₂ Equals left.terms right.terms := by
    unfold terms
    rw [(alike_of_equals same).operation]
    split
    · exact .nil
    · exact values_of_equals same
    · exact filterTerms_of_equals same
  exact List.rel_filterMap (fun _ _ sameTerm => Term.bound?_rel sameTerm) terms

end Query

namespace Fragment

theorem join_equals {separator : String} {first first' second second' : Fragment}
    (sameFirst : Equals first first') (sameSecond : Equals second second') :
    Equals (join separator first second) (join separator first' second') := by
  obtain ⟨firstText, firstBinds⟩ := equals_iff.mp sameFirst
  obtain ⟨secondText, secondBinds⟩ := equals_iff.mp sameSecond
  rw [equals_iff, text_join, text_join, firstText, secondText]
  exact ⟨rfl, List.rel_append firstBinds secondBinds⟩

theorem joinAll_equals {separator : String} {lefts rights : List Fragment}
    (same : List.Forall₂ Equals lefts rights) :
    Equals (joinAll separator lefts) (joinAll separator rights) := by
  induction same with
  | nil => rfl
  | cons samePart _ ih =>
    rw [joinAll_cons, joinAll_cons]
    exact join_equals samePart ih

end Fragment

namespace Piece

theorem leaves_of_equals {left right : Piece} (same : Equals left right) :
    List.Forall₂ Equals left.leaves right.leaves := by
  induction left generalizing right with
  | text content =>
    obtain rfl := equals_text_iff.mp same
    exact .cons (Fragment.equals_iff.mpr ⟨rfl, .nil⟩) .nil
  | fragment part =>
    obtain ⟨inner, rfl, samePart⟩ := equals_fragment_iff.mp same
    exact .cons samePart .nil
  | group pieces ih =>
    obtain ⟨inner, rfl, samePieces⟩ := equals_group_iff.mp same
    have leaves := ((List.forall₂_and_left _ _).mpr ⟨ih, samePieces⟩).imp
      fun _ _ both => both.1 both.2
    rw [leaves_group, leaves_group, leavesOf_eq_flatMap, leavesOf_eq_flatMap]
    exact List.rel_flatMap leaves fun _ _ inParts => inParts

end Piece

theorem Assembly.finish_equals {separator : String} {lefts rights : List Piece}
    (same : List.Forall₂ Equals lefts rights) :
    Equals (finish { separator, pieces := lefts }) (finish { separator, pieces := rights }) := by
  rw [finish_eq_joinAll, finish_eq_joinAll]
  have leaves : List.Forall₂ Equals (Piece.leavesOf lefts) (Piece.leavesOf rights) := by
    rw [Piece.leavesOf_eq_flatMap, Piece.leavesOf_eq_flatMap]
    exact List.rel_flatMap same fun _ _ => Piece.leaves_of_equals
  exact Fragment.joinAll_equals leaves

/-- Equality is a partial equivalence that only a NaN keeps from being reflexive, for data and all
that holds them, and it is respected: equal queries are refused with one error or written as one
text with equal data, with the same notices, and equal pieces make equal fragments. It is no
identity: zeros of both signs, and timestamps of one instant, may stand for each other anywhere. -/
theorem Dialect.equality_respected (dialect : Dialect) :
    (PartialEquality Datum (fun datum => [datum]) ∧ PartialEquality Term Term.given ∧
      PartialEquality Condition Condition.given ∧ PartialEquality Query Query.given ∧
      PartialEquality Fragment Fragment.binds ∧ PartialEquality Piece Piece.given) ∧
    (∀ left right : Query, (left == right) = true →
      (dialect.style.write left).log = (dialect.style.write right).log ∧
        ((∃ error, (dialect.style.write left).value = .error error ∧
            (dialect.style.write right).value = .error error) ∨
          ∃ text leftBinds rightBinds,
            (dialect.style.write left).value = .ok ⟨text, leftBinds⟩ ∧
            (dialect.style.write right).value = .ok ⟨text, rightBinds⟩ ∧
            List.Forall₂ (fun left right => (left == right) = true) leftBinds rightBinds)) ∧
    (∀ (separator : String) (lefts rights : List Piece),
      List.Forall₂ (fun left right => (left == right) = true) lefts rights →
      (Assembly.finish { separator, pieces := lefts } ==
        Assembly.finish { separator, pieces := rights }) = true) ∧
    (∀ left right : Double, left.isZero = true → right.isZero = true →
      (Datum.double left == .double right) = true) ∧
    (∀ left right : Timestamp, left.instant = right.instant →
      (Datum.timestamp left == .timestamp right) = true) ∧
    ∀ left right : Condition, (left == right) = true ↔
      Condition.Corresponds (fun left right => (left == right) = true)
        (fun _ left right => left = right) left right := by
  refine ⟨⟨.of_partialAt Datum.partialAt, .of_partialAt Term.partialAt,
    .of_partialAt Condition.partialAt, .of_partialAt Query.partialAt,
    .of_partialAt Fragment.partialAt, .of_partialAt Piece.partialAt⟩,
    ?queries, ?pieces, ?zeros, ?instants, ?trees⟩
  case queries =>
    intro left right same
    have alike := Query.alike_of_equals same
    constructor
    · rw [log_write, log_write, alike.notices_eq]
    · rw [value_write, value_write, alike.error?_eq, alike.spell_eq]
      cases right.error? with
      | some error => exact .inl ⟨error, rfl, rfl⟩
      | none =>
        exact .inr ⟨right.spell dialect Term.slotText, left.data, right.data, rfl, rfl,
          Query.data_of_equals same⟩
  case pieces =>
    intro separator lefts rights same
    exact Assembly.finish_equals same
  case zeros =>
    intro left right leftZero rightZero
    exact Datum.equals_double_iff.mpr ⟨right, rfl, Double.beq_of_isZero leftZero rightZero⟩
  case instants =>
    intro left right sameInstant
    exact Datum.equals_timestamp_iff.mpr ⟨right, rfl, Timestamp.beq_iff.mpr sameInstant⟩
  case trees =>
    intro left right
    exact ⟨Condition.corresponds_of_equals, Condition.equals_of_corresponds⟩

def Query.priced (price : Double) (sold : Timestamp) : Query where
  operation := some .select
  table := some "fruit"
  filter := some (.any [.eq "price" (.literal (.double price)),
    .negation (.all [.lt "sold" (.bind (.timestamp sold))])])

def Timestamp.noon : Timestamp := ⟨2024, 2, 29, 12, 0, 0, 0, 0⟩

/-- The same instant as noon, told one day later by a clock that is fourteen hours ahead. -/
def Timestamp.noonFarEast : Timestamp := ⟨2024, 3, 1, 2, 0, 0, 0, 50400⟩

/-- A quiet NaN. -/
def Double.undefined : Double := ⟨0x7FF8000000000000⟩

def Double.infinity : Double := ⟨0x7FF0000000000000⟩

/-- The other zero and the other clock make no difference to the text, and none that counts to the
data. With a NaN in it a query is not even equal to itself, but with an infinity it is. -/
theorem Dialect.equality_respected_priced :
    (Query.priced ⟨0⟩ .noon == Query.priced ⟨0x8000000000000000⟩ .noonFarEast) = true ∧
      (∃ binds, (Dialect.cql.style.write (.priced ⟨0x8000000000000000⟩ .noonFarEast)).value =
          .ok ⟨"select * from fruit where price = ? or not (sold < ?)", binds⟩ ∧
        List.Forall₂ (fun left right => (left == right) = true)
          [.double ⟨0⟩, .timestamp .noon] binds) ∧
      (Assembly.finish { pieces := [.text "at", .fragment ⟨"?", [.timestamp .noon]⟩] } ==
        Assembly.finish { pieces := [.text "at", .fragment ⟨"?", [.timestamp .noonFarEast]⟩] }) =
          true ∧
      (Datum.double ⟨0⟩ == .double ⟨0x8000000000000000⟩) = true ∧
      (Datum.timestamp .noon == .timestamp .noonFarEast) = true ∧
      (Query.priced .undefined .noon == Query.priced .undefined .noon) = false ∧
      (Query.priced .infinity .noon == Query.priced .infinity .noon) = true := by
  obtain ⟨⟨-, -, -, equality, -, -⟩, queries, pieces, zeros, instants, -⟩ :=
    Dialect.equality_respected .cql
  have same : (Query.priced ⟨0⟩ .noon == Query.priced ⟨0x8000000000000000⟩ .noonFarEast) = true :=
    rfl
  have written : (Dialect.cql.style.write (.priced ⟨0⟩ .noon)).value =
      .ok ⟨"select * from fruit where price = ? or not (sold < ?)",
        [.double ⟨0⟩, .timestamp .noon]⟩ := rfl
  refine ⟨same, ?text, pieces " " _ _ (.cons rfl (.cons rfl .nil)), zeros _ _ rfl rfl,
    instants _ _ rfl, ?undefined, ?infinity⟩
  case text =>
    obtain ⟨-, ⟨error, refused, -⟩ | ⟨text, leftBinds, rightBinds, left, right, binds⟩⟩ :=
      queries _ _ same
    · rw [written] at refused
      cases refused
    · rw [written] at left
      cases left
      exact ⟨rightBinds, right, binds⟩
  case undefined =>
    rw [Bool.eq_false_iff]
    intro equal
    have noNaN := (equality.self_iff _).mp equal (.double .undefined) List.mem_cons_self
    cases noNaN
  case infinity => exact (equality.self_iff _).mpr (by decide)

end BoundQuery
