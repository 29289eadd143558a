import BoundQuery.Proofs.Condition.Correspondence
import BoundQuery.Proofs.Condition.Reading

/-!
# The kernel of writing filters

Exactly which conditions are written alike. Where columns and verbatim texts are words, the text
and the data of a filter determine its condition up to the connective of groups with one member
and the marks of bound terms. In CQL the outermost parentheses are gone, and with them the
difference between a single member at the root and a group around it.
-/

set_option autoImplicit false

namespace BoundQuery

/-- The same verbatim text, or two terms that bind the same datum. -/
inductive Term.SameSlot : Term → Term → Prop where
  | raw {text : String} : SameSlot (.raw text) (.raw text)
  | bound {left right : Term} {datum : Datum} :
      left.bound? = some datum → right.bound? = some datum → SameSlot left right

namespace Condition

/-- The same condition up to the connective of groups with one member and the marks of terms. -/
def SameFilter : Condition → Condition → Prop :=
  Corresponds Term.SameSlot fun size left right => 2 ≤ size → left = right

/-- A single member at the root, out of its group, unless it is itself a group. -/
def collapse : Condition → Condition
  | .group connective [member] =>
    if member.isGroup then .group connective [member] else member
  | condition => condition

end Condition

namespace Term.SameSlot

variable {left right : Term}

theorem slotText_eq (same : SameSlot left right) : left.slotText = right.slotText := by
  cases same with
  | raw => rfl
  | bound leftBound rightBound => cases left <;> cases right <;> simp_all [slotText, bound?]

theorem bound?_eq (same : SameSlot left right) : left.bound? = right.bound? := by
  cases same with
  | raw => rfl
  | bound leftBound rightBound => rw [leftBound, rightBound]

/-- Terms at the same places with the same data in order bind the same datum at each place. -/
theorem forall₂_of_alike {lefts rights : List Term} (alike : List.Forall₂ Alike lefts rights)
    (data : lefts.filterMap bound? = rights.filterMap bound?) :
    List.Forall₂ SameSlot lefts rights := by
  induction alike with
  | nil => exact .nil
  | @cons left right lefts rights first _ ih =>
    cases first with
    | raw => exact .cons .raw (ih data)
    | bound leftBound rightBound =>
      have leftDatum : left.bound? ≠ none := by simp [bound?_eq_none_iff, leftBound]
      have rightDatum : right.bound? ≠ none := by simp [bound?_eq_none_iff, rightBound]
      obtain ⟨datum, leftIs⟩ := Option.ne_none_iff_exists'.mp leftDatum
      obtain ⟨datum', rightIs⟩ := Option.ne_none_iff_exists'.mp rightDatum
      rw [List.filterMap_cons_some leftIs, List.filterMap_cons_some rightIs] at data
      obtain ⟨rfl, others⟩ := List.cons.inj data
      exact .cons (.bound leftIs rightIs) (ih others)

end Term.SameSlot

namespace Formula

def isRow : Formula → Bool
  | .join .. | .constant _ => true
  | _ => false

theorem row_ne_of_length_ne_one {connective : Connective} {members : List Formula}
    (length : members.length ≠ 1) {single : Formula} (isSingle : single.isRow = false) :
    row connective members ≠ single := by
  rintro rfl
  match members with
  | [] => cases isSingle
  | [member] => exact length rfl
  | first :: second :: others => cases isSingle

/-- The members of a row can be told, and so can its connective if it is written. -/
theorem row_inj {connective connective' : Connective} {lefts rights : List Formula}
    (leftSingle : ∀ member ∈ lefts, member.isRow = false)
    (rightSingle : ∀ member ∈ rights, member.isRow = false)
    (same : row connective lefts = row connective' rights) :
    lefts = rights ∧ (2 ≤ lefts.length → connective = connective') := by
  induction lefts generalizing rights with
  | nil =>
    match rights with
    | [] => simp
    | [right] =>
      exact absurd same (row_ne_of_length_ne_one (by simp) (rightSingle right List.mem_cons_self))
    | _ :: _ :: _ => cases same
  | cons left lefts ih =>
    match lefts, rights with
    | [], [right] =>
      have members : left = right := same
      simp [members]
    | [], [] =>
      have isSingle := leftSingle left List.mem_cons_self
      exact absurd same.symm (row_ne_of_length_ne_one (by simp) isSingle)
    | [], _ :: _ :: _ =>
      have isSingle := leftSingle left List.mem_cons_self
      exact absurd same.symm (row_ne_of_length_ne_one (by simp) isSingle)
    | _ :: _, [] => cases same
    | _ :: _, [right] =>
      exact absurd same (row_ne_of_length_ne_one (by simp) (rightSingle right List.mem_cons_self))
    | second :: others, right :: second' :: others' =>
      rw [row_cons_cons, row_cons_cons, join.injEq] at same
      obtain ⟨sameWord, rfl, tails⟩ := same
      obtain ⟨sameOthers, -⟩ := ih (fun member isMember => leftSingle member (.tail _ isMember))
        (fun member isMember => rightSingle member (.tail _ isMember)) tails
      rw [sameOthers]
      exact ⟨rfl, fun _ => sameWord⟩

end Formula

namespace Condition

theorem isRow_formula (condition : Condition) : condition.formula.isRow = false := by
  cases condition <;> rfl

private theorem isRow_of_mem_formulas {members : List Condition} :
    ∀ formula ∈ formulas members, formula.isRow = false := by
  intro formula isFormula
  rw [formulas_eq_map] at isFormula
  obtain ⟨member, _, rfl⟩ := List.mem_map.mp isFormula
  exact member.isRow_formula

private theorem forall₂_of_map_eq {α β : Type} {write : α → β} {related : α → α → Prop}
    {lefts rights : List α} (same : lefts.map write = rights.map write)
    (each : ∀ left ∈ lefts, ∀ right ∈ rights, write left = write right → related left right) :
    List.Forall₂ related lefts rights := by
  induction lefts generalizing rights with
  | nil =>
    have noRights : rights = [] := List.map_eq_nil_iff.mp same.symm
    rw [noRights]
    exact .nil
  | cons left lefts ih =>
    cases rights with
    | nil => simp at same
    | cons right rights =>
      rw [List.map_cons, List.map_cons] at same
      obtain ⟨head, tails⟩ := List.cons.inj same
      refine .cons (each left List.mem_cons_self right List.mem_cons_self head) (ih tails ?_)
      intro other isOther other' isOther'
      exact each other (List.mem_cons_of_mem _ isOther) other' (List.mem_cons_of_mem _ isOther')

/-- A word is not the mark of a placeholder, so a verbatim slot is not mistaken for a bound one. -/
private theorem alike_of_slotText_eq {left right : Term}
    (leftWords : ∀ text ∈ left.verbatim, IsWord keywords text)
    (rightWords : ∀ text ∈ right.verbatim, IsWord keywords text)
    (same : left.slotText = right.slotText) : Term.Alike left right := by
  have noWord : ¬ IsWord keywords Term.placeholder := by
    intro isWord
    have chars := isWord.chars '?' (by decide)
    exact absurd chars (by decide)
  cases left with
  | raw text =>
    have isWord := leftWords text List.mem_cons_self
    cases right with
    | raw text' =>
      obtain rfl : text = text' := same
      exact .raw
    | literal datum | bind datum =>
      obtain rfl : text = Term.placeholder := same
      exact absurd isWord noWord
  | literal datum | bind datum =>
    cases right with
    | raw text' =>
      obtain rfl : Term.placeholder = text' := same
      exact absurd (rightWords _ List.mem_cons_self) noWord
    | literal datum' | bind datum' => exact .bound rfl rfl

/-- The reading of a condition in words determines its tree. -/
theorem corresponds_of_formula_eq {left right : Condition} (leftWords : left.InWords)
    (rightWords : right.InWords) (same : left.formula = right.formula) :
    Corresponds Term.Alike (fun size left right => 2 ≤ size → left = right) left right := by
  induction left generalizing right with
  | compare comparator column term =>
    cases right with
    | compare comparator' column' term' =>
      rw [formula_compare, formula_compare, Formula.compare.injEq] at same
      obtain ⟨rfl, rfl, slots⟩ := same
      exact .compare (alike_of_slotText_eq (List.forall_mem_cons.mp leftWords).2
        (List.forall_mem_cons.mp rightWords).2 slots)
    | group connective members => cases same
    | negation negated => cases same
  | group connective members ih =>
    cases right with
    | compare comparator column term => cases same
    | negation negated => cases same
    | group connective' members' =>
      rw [formula_group, formula_group, Formula.parenthesized.injEq] at same
      obtain ⟨sameMembers, sameWord⟩ :=
        Formula.row_inj isRow_of_mem_formulas isRow_of_mem_formulas same
      rw [formulas_eq_map, formulas_eq_map] at sameMembers
      rw [formulas_eq_map, List.length_map] at sameWord
      refine .group sameWord (forall₂_of_map_eq sameMembers ?_)
      intro member isMember member' isMember' sameFormula
      exact ih member isMember (inWords_of_mem leftWords isMember)
        (inWords_of_mem rightWords isMember') sameFormula
  | negation negated ih =>
    cases right with
    | compare comparator column term => cases same
    | group connective members => cases same
    | negation negated' =>
      exact .negation (ih leftWords rightWords (Formula.negation.inj same))

theorem sameFilter_of_formula_eq {left right : Condition} (leftWords : left.InWords)
    (rightWords : right.InWords) (formulas : left.formula = right.formula)
    (data : left.data = right.data) : left.SameFilter right := by
  have corresponds := corresponds_of_formula_eq leftWords rightWords formulas
  exact corresponds.of_terms (Term.SameSlot.forall₂_of_alike corresponds.terms_forall₂ data)

namespace SameFilter

variable {left right : Condition}

theorem spellIn_eq (same : left.SameFilter right) (dialect : Dialect) :
    left.spellIn Term.slotText dialect = right.spellIn Term.slotText dialect :=
  Corresponds.spellIn_eq (fun _ _ slots => slots.slotText_eq) (fun _ _ _ words => words) same
    dialect

theorem data_eq (same : left.SameFilter right) : left.data = right.data := by
  have terms := Corresponds.terms_forall₂ same
  unfold data
  generalize left.terms = lefts, right.terms = rights at terms ⊢
  induction terms with
  | nil => rfl
  | cons first _ ih => rw [List.filterMap_cons, List.filterMap_cons, first.bound?_eq, ih]

end SameFilter

theorem spellIn_collapse (slot : Term → String) (condition : Condition) :
    condition.collapse.spellIn slot .cql = condition.spellIn slot .cql := by
  match condition with
  | .compare .. | .negation _ | .group _ [] | .group _ (_ :: _ :: _) | .group _ [.group ..] => rfl
  | .group _ [.compare ..] | .group _ [.negation _] =>
    rw [spellIn_cql_group, spellAll_cons, spellAll_nil, String.intercalate_singleton]
    rfl

theorem data_collapse (condition : Condition) : condition.collapse.data = condition.data := by
  match condition with
  | .compare .. | .negation _ | .group _ [] | .group _ (_ :: _ :: _) | .group _ [.group ..] => rfl
  | .group _ [.compare ..] => rfl
  | .group _ [.negation negated] => simp [collapse, isGroup, data]

theorem inWords_collapse {condition : Condition} (words : condition.InWords) :
    condition.collapse.InWords := by
  match condition with
  | .compare .. | .negation _ | .group _ [] | .group _ (_ :: _ :: _) | .group _ [.group ..] =>
    exact words
  | .group _ [.compare ..] | .group _ [.negation _] =>
    exact inWords_of_mem words List.mem_cons_self

end Condition

/-- A reading at the root of a CQL filter, with the parentheses that it lost. A comparison or a
negation may never have had any. -/
def Formula.closed : Formula → Formula
  | .compare comparator column operand => .compare comparator column operand
  | .negation negated => .negation negated
  | formula => .parenthesized formula

namespace Condition

theorem formula_collapse (condition : Condition) :
    condition.collapse.formula = (condition.formulaIn .cql).closed := by
  match condition with
  | .compare .. | .negation _ | .group _ [] | .group _ (_ :: _ :: _) => rfl
  | .group _ [.compare ..] | .group _ [.group ..] | .group _ [.negation _] => rfl

section Kernel

variable {left right : Condition} (leftWellFormed : left.WellFormed)
  (rightWellFormed : right.WellFormed) (leftWords : left.InWords) (rightWords : right.InWords)

include leftWellFormed rightWellFormed leftWords rightWords

theorem formulaIn_eq_of_spellIn_eq (dialect : Dialect)
    (texts : left.spellIn Term.slotText dialect = right.spellIn Term.slotText dialect) :
    left.formulaIn dialect = right.formulaIn dialect := by
  have leftReading := reads_formulaIn dialect leftWellFormed leftWords
  have rightReading := reads_formulaIn dialect rightWellFormed rightWords
  rw [← ofText_spellIn dialect leftWords, texts, ofText_spellIn dialect rightWords] at leftReading
  exact leftReading.unique_of_whole rightReading

theorem spellIn_standard_eq_iff :
    (left.spellIn Term.slotText .standard = right.spellIn Term.slotText .standard ∧
        left.data = right.data) ↔ left.SameFilter right := by
  constructor
  · rintro ⟨texts, data⟩
    have formulas := formulaIn_eq_of_spellIn_eq leftWellFormed rightWellFormed leftWords
      rightWords .standard texts
    exact sameFilter_of_formula_eq leftWords rightWords formulas data
  · intro same
    exact ⟨same.spellIn_eq .standard, same.data_eq⟩

theorem spellIn_cql_eq_iff :
    (left.spellIn Term.slotText .cql = right.spellIn Term.slotText .cql ∧
        left.data = right.data) ↔ left.collapse.SameFilter right.collapse := by
  constructor
  · rintro ⟨texts, data⟩
    have readings := formulaIn_eq_of_spellIn_eq leftWellFormed rightWellFormed leftWords
      rightWords .cql texts
    -- Readings of a root without parentheses are compared after these are put back.
    have formulas : left.collapse.formula = right.collapse.formula := by
      rw [formula_collapse, formula_collapse, readings]
    refine sameFilter_of_formula_eq (inWords_collapse leftWords) (inWords_collapse rightWords)
      formulas ?_
    rw [data_collapse, data_collapse]
    exact data
  · intro same
    have texts := same.spellIn_eq .cql
    have data := same.data_eq
    rw [spellIn_collapse, spellIn_collapse] at texts
    rw [data_collapse, data_collapse] at data
    exact ⟨texts, data⟩

end Kernel

end Condition

/-- Exactly the conditions that differ in nothing but the connective of groups with one member and
the marks of terms are written alike. In CQL this holds of what is left of them at the root. -/
theorem Dialect.filter_kernel {left right : Condition} {leftRendered rightRendered : Fragment}
    (leftWritten : left.render = .ok leftRendered)
    (rightWritten : right.render = .ok rightRendered)
    (leftWords : left.InWords) (rightWords : right.InWords) :
    (∃ first second, Dialect.standard.style.filter left = .ok first ∧
        Dialect.standard.style.filter right = .ok second ∧
        (first.text = second.text ∧ first.binds = second.binds ↔ left.SameFilter right)) ∧
      ∃ first second, Dialect.cql.style.filter left = .ok first ∧
        Dialect.cql.style.filter right = .ok second ∧
        (first.text = second.text ∧ first.binds = second.binds ↔
          left.collapse.SameFilter right.collapse) := by
  obtain ⟨leftWellFormed, -⟩ := Condition.render_eq_ok_iff.mp leftWritten
  obtain ⟨rightWellFormed, -⟩ := Condition.render_eq_ok_iff.mp rightWritten
  constructor
  · refine ⟨_, _, filter_eq_ok_iff.mpr ⟨leftWellFormed, rfl⟩,
      filter_eq_ok_iff.mpr ⟨rightWellFormed, rfl⟩, ?_⟩
    exact Condition.spellIn_standard_eq_iff leftWellFormed rightWellFormed leftWords rightWords
  · refine ⟨_, _, filter_eq_ok_iff.mpr ⟨leftWellFormed, rfl⟩,
      filter_eq_ok_iff.mpr ⟨rightWellFormed, rfl⟩, ?_⟩
    exact Condition.spellIn_cql_eq_iff leftWellFormed rightWellFormed leftWords rightWords

def Condition.placeheld : Condition := .eq "size" (.literal (.text "%@"))

/-- A group of one comparison, which binds the mark of a placeholder as it is. -/
def Condition.placeheldGroup : Condition := .all [.eq "size" (.bind (.text "?"))]

theorem Dialect.filter_kernel_placeheld :
    Condition.placeheld.render = .ok Condition.placeheld.spelling ∧
      Condition.placeheldGroup.render = .ok Condition.placeheldGroup.spelling ∧
      Condition.placeheld.InWords ∧ Condition.placeheldGroup.InWords ∧
      (∃ first second, Dialect.standard.style.filter .placeheld = .ok first ∧
        Dialect.standard.style.filter .placeheldGroup = .ok second ∧
        ¬ (first.text = second.text ∧ first.binds = second.binds)) ∧
      ∃ first second, Dialect.cql.style.filter .placeheld = .ok first ∧
        Dialect.cql.style.filter .placeheldGroup = .ok second ∧
        first.text = second.text ∧ first.binds = second.binds := by
  have rendered : Condition.placeheld.render = .ok Condition.placeheld.spelling := rfl
  have groupRendered :
      Condition.placeheldGroup.render = .ok Condition.placeheldGroup.spelling := rfl
  have words : Condition.placeheld.InWords := by decide
  have groupWords : Condition.placeheldGroup.InWords := by decide
  obtain ⟨⟨first, second, written, groupWritten, same⟩, cql⟩ :=
    Dialect.filter_kernel rendered groupRendered words groupWords
  refine ⟨rendered, groupRendered, words, groupWords, ?_, ?_⟩
  · refine ⟨first, second, written, groupWritten, ?_⟩
    rw [same]
    intro sameFilter
    cases sameFilter
  · obtain ⟨first, second, written, groupWritten, same⟩ := cql
    refine ⟨first, second, written, groupWritten, same.mpr ?_⟩
    exact .compare (.bound rfl rfl)

end BoundQuery
