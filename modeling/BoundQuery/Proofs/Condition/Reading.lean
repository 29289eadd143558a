import BoundQuery.Proofs.Condition.Grammar
import BoundQuery.Proofs.Condition.Truth
import BoundQuery.Proofs.Dialect.Filter
import BoundQuery.Proofs.Statement.Verbatim

/-!
# Readings of filters

A filter is read back as the condition that it was written from. Where columns and verbatim texts
are words, the text in either dialect has one reading under the grammar, and the reading has the
value of the condition, whatever values its comparisons have.
-/

set_option autoImplicit false

namespace BoundQuery

open Token

theorem Comparator.isSolid_symbol (comparator : Comparator) : IsSolid comparator.symbol := by
  cases comparator <;> decide

theorem Connective.isSolid_word (connective : Connective) : IsSolid connective.word := by
  cases connective <;> decide

namespace Formula

def tokens : Formula → List Token
  | .compare comparator column operand =>
    [.word column, .word comparator.symbol, .word operand]
  | .parenthesized inner => .opening :: (tokens inner ++ [.closing])
  | .negation negated => .word Condition.negationWord :: tokens negated
  | .join connective left right => tokens left ++ .word connective.word :: tokens right
  | .constant _ => []

def comparisons : Formula → List (Comparator × String × String)
  | .compare comparator column operand => [(comparator, column, operand)]
  | .parenthesized inner => comparisons inner
  | .negation negated => comparisons negated
  | .join _ left right => comparisons left ++ comparisons right
  | .constant _ => []

def holds (truth : Nat → Bool) (first : Nat) : Formula → Bool
  | .compare .. => truth first
  | .parenthesized inner => holds truth first inner
  | .negation negated => !holds truth first negated
  | .join connective left right =>
    connective.holds [holds truth first left, holds truth (first + left.comparisons.length) right]
  | .constant value => value

/-- Members in a row under one connective. -/
def row (connective : Connective) : List Formula → Formula
  | [] => .constant (connective.holds [])
  | [member] => member
  | member :: rest => .join connective member (row connective rest)

@[simp] theorem row_singleton (connective : Connective) (member : Formula) :
    row connective [member] = member := rfl

@[simp] theorem row_cons_cons (connective : Connective) (first second : Formula)
    (rest : List Formula) :
    row connective (first :: second :: rest) =
      .join connective first (row connective (second :: rest)) := rfl

private theorem reads_row_all {members : List Formula} (written : members ≠ [])
    (each : ∀ member ∈ members, Reads .factor member.tokens member) :
    Reads .conjunction (row .all members).tokens (row .all members) := by
  induction members with
  | nil => exact absurd rfl written
  | cons member rest ih =>
    have first := each member List.mem_cons_self
    cases rest with
    | nil => exact .factor first
    | cons second others =>
      exact .all first
        (ih (by simp) fun other isOther => each other (List.mem_cons_of_mem _ isOther))

private theorem reads_row_any {members : List Formula} (written : members ≠ [])
    (each : ∀ member ∈ members, Reads .factor member.tokens member) :
    Reads .expression (row .any members).tokens (row .any members) := by
  induction members with
  | nil => exact absurd rfl written
  | cons member rest ih =>
    have first := each member List.mem_cons_self
    cases rest with
    | nil => exact .conjunction (.factor first)
    | cons second others =>
      exact .any (.factor first)
        (ih (by simp) fun other isOther => each other (List.mem_cons_of_mem _ isOther))

/-- Factors in a row are read as one expression, but only if there are any. -/
theorem reads_row {members : List Formula} (written : members ≠ [])
    (each : ∀ member ∈ members, Reads .factor member.tokens member) (connective : Connective) :
    Reads .expression (row connective members).tokens (row connective members) := by
  cases connective with
  | all => exact .conjunction (reads_row_all written each)
  | any => exact reads_row_any written each

end Formula

namespace Condition

mutual

def formula : Condition → Formula
  | .compare comparator column right => .compare comparator column right.slotText
  | .group connective members => .parenthesized (.row connective (formulas members))
  | .negation negated => .negation (formula negated)

def formulas : List Condition → List Formula
  | [] => []
  | member :: rest => formula member :: formulas rest

end

def formulaIn : Dialect → Condition → Formula
  | .cql, .group connective members => .row connective (formulas members)
  | _, condition => condition.formula

def InWords (condition : Condition) : Prop :=
  ∀ text ∈ condition.verbatim, IsWord keywords text

instance (condition : Condition) : Decidable condition.InWords :=
  inferInstanceAs (Decidable (∀ text ∈ condition.verbatim, IsWord keywords text))

theorem inWords_of_mem {connective : Connective} {members : List Condition}
    (words : InWords (.group connective members)) {member : Condition}
    (isMember : member ∈ members) : member.InWords := by
  intro text isText
  refine words text ?_
  rw [verbatim_group, verbatimOf_eq_flatMap]
  exact List.mem_flatMap.mpr ⟨member, isMember, isText⟩

@[simp] theorem formula_compare (comparator : Comparator) (column : String) (right : Term) :
    formula (.compare comparator column right) =
      .compare comparator column right.slotText := rfl

@[simp] theorem formula_group (connective : Connective) (members : List Condition) :
    formula (.group connective members) =
      .parenthesized (.row connective (formulas members)) := rfl

@[simp] theorem formula_negation (negated : Condition) :
    formula (.negation negated) = .negation (formula negated) := rfl

@[simp] theorem formulas_nil : formulas [] = [] := rfl

@[simp] theorem formulas_cons (member : Condition) (rest : List Condition) :
    formulas (member :: rest) = formula member :: formulas rest := rfl

theorem formulas_eq_map (members : List Condition) : formulas members = members.map formula := by
  induction members with
  | nil => rfl
  | cons member rest ih => simp [ih]

mutual

/-- The text of a condition is cut into the tokens of its reading, whatever follows after it. -/
theorem scan_spell : ∀ condition : Condition, condition.InWords →
    ∀ {rest : List Char}, Delimited rest →
    scan [] ((condition.spell Term.slotText).toList ++ rest) =
      condition.formula.tokens ++ scan [] rest
  | .compare comparator column right, words, rest, delimited => by
    obtain ⟨columnWord, rightWords⟩ := List.forall_mem_cons.mp words
    have text : (spell Term.slotText (.compare comparator column right)).toList ++ rest =
        column.toList ++ ' ' :: (comparator.symbol.toList ++
          ' ' :: (right.slotText.toList ++ rest)) := by
      simp
    rw [text, scan_word columnWord.isSolid (delimited_space _), scan_space,
      scan_word comparator.isSolid_symbol (delimited_space _), scan_space,
      scan_word (Term.isSolid_slotText rightWords) delimited]
    rfl
  | .group connective members, words, rest, delimited => by
    have text : (spell Term.slotText (.group connective members)).toList ++ rest =
        '(' :: (((" " ++ connective.word ++ " ").intercalate
          (spellAll Term.slotText members)).toList ++ ')' :: rest) := by
      simp
    rw [text, scan_opening, scan_spellAll connective members words (delimited_closing rest),
      scan_closing]
    simp [Formula.tokens]
  | .negation negated, words, rest, delimited => by
    have text : (spell Term.slotText (.negation negated)).toList ++ rest =
        negationWord.toList ++ ' ' :: ((spell Term.slotText negated).toList ++ rest) := by
      simp
    have solid : IsSolid negationWord := by decide
    rw [text, scan_word solid (delimited_space _), scan_space, scan_spell negated words delimited]
    rfl

theorem scan_spellAll (connective : Connective) : ∀ members : List Condition,
    (∀ text ∈ verbatimOf members, IsWord keywords text) →
    ∀ {rest : List Char}, Delimited rest →
    scan [] (((" " ++ connective.word ++ " ").intercalate
        (spellAll Term.slotText members)).toList ++ rest) =
      (Formula.row connective (formulas members)).tokens ++ scan [] rest
  | [], _, rest, _ => by
    rw [spellAll_nil, String.intercalate_nil]
    rfl
  | [member], words, rest, delimited => by
    rw [verbatimOf_cons, verbatimOf_nil, List.append_nil] at words
    rw [spellAll_cons, spellAll_nil, String.intercalate_singleton]
    exact scan_spell member words delimited
  | member :: second :: others, words, rest, delimited => by
    obtain ⟨memberWords, othersWords⟩ := List.forall_mem_append.mp words
    have text : ((" " ++ connective.word ++ " ").intercalate
          (spellAll Term.slotText (member :: second :: others))).toList ++ rest =
        (member.spell Term.slotText).toList ++ ' ' :: (connective.word.toList ++ ' ' ::
          (((" " ++ connective.word ++ " ").intercalate
            (spellAll Term.slotText (second :: others))).toList ++ rest)) := by
      rw [spellAll_cons, spellAll_cons, String.intercalate_cons_cons, ← spellAll_cons]
      simp only [String.toList_append, List.append_assoc]
      rfl
    rw [text, scan_spell member memberWords (delimited_space _), scan_space,
      scan_word connective.isSolid_word (delimited_space _), scan_space,
      scan_spellAll connective (second :: others) othersWords delimited]
    simp [Formula.tokens]

end

theorem ofText_spellIn (dialect : Dialect) {condition : Condition} (words : condition.InWords) :
    Token.ofText (condition.spellIn Term.slotText dialect) =
      (condition.formulaIn dialect).tokens := by
  have whole := scan_spell condition words delimited_nil
  rw [List.append_nil, scan_nil, List.append_nil] at whole
  cases dialect with
  | standard => exact whole
  | cql =>
    cases condition with
    | compare comparator column right => exact whole
    | negation negated => exact whole
    | group connective members =>
      have row := scan_spellAll connective members words delimited_nil
      rwa [List.append_nil, scan_nil, List.append_nil] at row

private theorem reads_members {connective : Connective} {members : List Condition}
    (wellFormed : WellFormed (.group connective members))
    (each : ∀ member ∈ members, Reads .factor member.formula.tokens member.formula) :
    Reads .expression (Formula.row connective (formulas members)).tokens
      (.row connective (formulas members)) := by
  rw [formulas_eq_map]
  refine Formula.reads_row ?_ ?_ connective
  · rw [ne_eq, List.map_eq_nil_iff]
    exact ne_nil_of_wellFormed wellFormed
  · intro formula isFormula
    obtain ⟨member, isMember, rfl⟩ := List.mem_map.mp isFormula
    exact each member isMember

/-- A condition without faults is read as a factor: its own parentheses hold it together. -/
theorem reads_formula {condition : Condition} (wellFormed : condition.WellFormed)
    (words : condition.InWords) : Reads .factor condition.formula.tokens condition.formula := by
  induction condition with
  | compare comparator column right =>
    obtain ⟨columnWord, rightWords⟩ := List.forall_mem_cons.mp words
    exact .compare columnWord (Term.isWord_or_placeholder rightWords)
  | group connective members ih =>
    refine .parenthesized (reads_members wellFormed ?_)
    intro member isMember
    exact ih member isMember (wellFormed_of_mem wellFormed isMember)
      (inWords_of_mem words isMember)
  | negation negated ih => exact .negation (ih wellFormed words)

theorem reads_formulaIn (dialect : Dialect) {condition : Condition}
    (wellFormed : condition.WellFormed) (words : condition.InWords) :
    Reads .expression (condition.formulaIn dialect).tokens (condition.formulaIn dialect) := by
  have whole := Reads.conjunction (.factor (reads_formula wellFormed words))
  cases dialect with
  | standard => exact whole
  | cql =>
    cases condition with
    | compare comparator column right => exact whole
    | negation negated => exact whole
    | group connective members =>
      refine reads_members wellFormed ?_
      intro member isMember
      exact reads_formula (wellFormed_of_mem wellFormed isMember) (inWords_of_mem words isMember)

mutual

theorem comparisons_formula : ∀ condition : Condition,
    condition.formula.comparisons = condition.comparisons
  | .compare .. => rfl
  | .group connective members => comparisons_row connective members
  | .negation negated => comparisons_formula negated

theorem comparisons_row (connective : Connective) : ∀ members : List Condition,
    (Formula.row connective (formulas members)).comparisons = comparisonsOf members
  | [] => rfl
  | [member] => by
    rw [comparisonsOf_cons, comparisonsOf_nil, List.append_nil]
    exact comparisons_formula member
  | member :: second :: others => by
    rw [comparisonsOf_cons, ← comparisons_formula member,
      ← comparisons_row connective (second :: others)]
    rfl

end

mutual

/-- A condition has the value of its reading. The numbers of the comparisons go on from member to
member on both sides. -/
theorem holds_formula (truth : Nat → Bool) : ∀ (condition : Condition) (first : Nat),
    condition.formula.holds truth first = condition.holds truth first
  | .compare .., _ => rfl
  | .group connective members, first => holds_row truth connective members first
  | .negation negated, first => congrArg (! ·) (holds_formula truth negated first)

theorem holds_row (truth : Nat → Bool) (connective : Connective) :
    ∀ (members : List Condition) (first : Nat),
    (Formula.row connective (formulas members)).holds truth first =
      connective.holds (holdsEach truth first members)
  | [], _ => rfl
  | [member], first => by
    rw [holdsEach_cons, holdsEach_nil, Connective.holds_singleton]
    exact holds_formula truth member first
  | member :: second :: others, first => by
    rw [holdsEach_cons, Connective.holds_cons, ← holds_formula truth member first,
      ← holds_row truth connective (second :: others), ← comparisons_formula member]
    rfl

end

theorem comparisons_formulaIn (dialect : Dialect) (condition : Condition) :
    (condition.formulaIn dialect).comparisons = condition.comparisons := by
  cases dialect with
  | standard => exact comparisons_formula condition
  | cql =>
    cases condition with
    | compare comparator column right => rfl
    | group connective members => exact comparisons_row connective members
    | negation negated => exact comparisons_formula negated

theorem holds_formulaIn (truth : Nat → Bool) (dialect : Dialect) (condition : Condition) :
    (condition.formulaIn dialect).holds truth 0 = condition.holds truth 0 := by
  cases dialect with
  | standard => exact holds_formula truth condition 0
  | cql =>
    cases condition with
    | compare comparator column right => rfl
    | group connective members => exact holds_row truth connective members 0
    | negation negated => exact holds_formula truth (.negation negated) 0

end Condition

/-- A filter means what its condition says: the text in a dialect is read as an expression in one
way only, with the same comparisons in the same order, and for all values of these the reading
has the value of the condition. -/
theorem Dialect.filter_reads {condition : Condition} {rendered : Fragment}
    (written : condition.render = .ok rendered) (words : condition.InWords) (dialect : Dialect) :
    ∃ fragment formula, dialect.style.filter condition = .ok fragment ∧
      Reads .expression (Token.ofText fragment.text) formula ∧
      (∀ other, Reads .expression (Token.ofText fragment.text) other → other = formula) ∧
      formula.comparisons = condition.comparisons ∧
      ∀ truth, formula.holds truth 0 = condition.holds truth 0 := by
  obtain ⟨wellFormed, -⟩ := Condition.render_eq_ok_iff.mp written
  have reading := Condition.reads_formulaIn dialect wellFormed words
  rw [← Condition.ofText_spellIn dialect words] at reading
  refine ⟨⟨condition.spellIn Term.slotText dialect, condition.data⟩,
    condition.formulaIn dialect, filter_eq_ok_iff.mpr ⟨wellFormed, rfl⟩, reading, ?_, ?_, ?_⟩
  · intro other otherReading
    exact otherReading.unique_of_whole reading
  · exact condition.comparisons_formulaIn dialect
  · intro truth
    exact condition.holds_formulaIn truth dialect

def Condition.choice : Condition :=
  .any [.eq "size" (.bind (.int 3)),
    .negation (.all [.gt "sold" (.raw "today"), .ne "name" (.literal (.text "?"))])]

theorem Dialect.filter_reads_choice :
    Condition.choice.render = .ok Condition.choice.spelling ∧ Condition.choice.InWords ∧
      ∃ fragment formula, Dialect.cql.style.filter .choice = .ok fragment ∧
        fragment.text = "size = ? or not (sold > today and name != ?)" ∧
        Reads .expression (Token.ofText fragment.text) formula ∧
        ∀ truth, formula.holds truth 0 = (truth 0 || !(truth 1 && truth 2)) := by
  have rendered : Condition.choice.render = .ok Condition.choice.spelling := rfl
  have words : Condition.choice.InWords := by decide
  obtain ⟨fragment, formula, written, reading, -, -, holds⟩ :=
    Dialect.filter_reads rendered words .cql
  refine ⟨rendered, words, fragment, formula, written, ?_, reading, ?_⟩
  · obtain ⟨-, rfl⟩ := filter_eq_ok_iff.mp written
    rfl
  · intro truth
    rw [holds truth]
    simp [Condition.choice, Condition.any, Condition.all, Condition.eq, Condition.gt,
      Condition.ne, Connective.holds]

end BoundQuery
