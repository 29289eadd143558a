import BoundQuery.Proofs.Condition.Truth
import BoundQuery.Proofs.Draft.Runs
import BoundQuery.Proofs.Statement.Refusal

/-!
# Chains of conditions

A filter that grows by one condition after another, with negations in between. Every link wraps
the filter so far, yet the conditions stay in the order in which they were added: so do their
data, their faults and their comparisons, and the value of the filter is computed along the chain.
-/

set_option autoImplicit false

namespace BoundQuery

/-- A change of the filter that keeps what is there: a condition joins it, or it is negated. -/
inductive Link where
  | combine (connective : Connective) (condition : Condition)
  | negate

/-- The value of a filter, unless there is none, and the number of the comparison after it. -/
structure Verdict where
  value : Option Bool := none
  next : Nat := 0

def Verdict.ofFilter (truth : Nat → Bool) : Option Condition → Verdict
  | some condition => ⟨some (condition.holds truth 0), condition.comparisons.length⟩
  | none => {}

theorem Verdict.value_ofFilter (truth : Nat → Bool) (filter : Option Condition) :
    (ofFilter truth filter).value = filter.map (Condition.holds truth 0) := by
  cases filter <;> rfl

namespace Link

def edit : Link → Draft.Edit
  | .combine connective condition => .combine connective condition
  | .negate => .negate

def condition? : Link → Option Condition
  | .combine _ condition => some condition
  | .negate => none

/-- The verdict after a link. The comparisons of its condition are numbered after all earlier
ones, and a negation of nothing is nothing. -/
def judge (truth : Nat → Bool) (verdict : Verdict) : Link → Verdict
  | .combine connective condition =>
    let joined := condition.holds truth verdict.next
    { value :=
        match verdict.value, connective with
        | none, _ => some joined
        | some value, .all => some (value && joined)
        | some value, .any => some (value || joined)
      next := verdict.next + condition.comparisons.length }
  | .negate => { verdict with value := verdict.value.map not }

/-- Judging a link after a filter is judging the filter with the link in it. -/
theorem judge_ofFilter (truth : Nat → Bool) (filter : Option Condition) (link : Link) :
    link.judge truth (.ofFilter truth filter) =
      .ofFilter truth (link.edit.refilter filter) := by
  cases filter with
  | none => cases link <;> simp [judge, edit, Draft.Edit.refilter, Verdict.ofFilter]
  | some first =>
    cases link with
    | negate => rfl
    | combine connective condition =>
      cases connective <;>
        simp [judge, edit, Draft.Edit.refilter, Verdict.ofFilter, Connective.holds]

end Link

namespace Condition

/-- What is gathered from a condition member by member, and not from its connectives. -/
structure Gathers {α : Type} (gather : Condition → List α) : Prop where
  pair : ∀ connective first second,
    gather (.group connective [first, second]) = gather first ++ gather second
  negation : ∀ negated, gather (.negation negated) = gather negated

theorem gathers_faults : Gathers faults where
  pair connective first second := by simp
  negation negated := rfl

theorem gathers_data : Gathers data where
  pair connective first second := by simp [data]
  negation negated := rfl

theorem Gathers.refilter {α : Type} {gather : Condition → List α} (gathers : Gathers gather)
    (filter : Option Condition) (link : Link) :
    (link.edit.refilter filter).toList.flatMap gather =
      (filter.toList ++ link.condition?.toList).flatMap gather := by
  cases filter with
  | none => cases link <;> rfl
  | some first =>
    cases link with
    | negate => simp [Link.edit, Draft.Edit.refilter, Link.condition?, gathers.negation]
    | combine connective condition =>
      simp [Link.edit, Draft.Edit.refilter, Link.condition?, gathers.pair]

/-- However the links wrap the filter, what is gathered is that of the conditions in their order. -/
theorem Gathers.chain {α : Type} {gather : Condition → List α} (gathers : Gathers gather)
    (filter : Option Condition) (links : List Link) :
    ((links.map Link.edit).foldl Draft.Edit.refilter filter).toList.flatMap gather =
      (filter.toList ++ links.filterMap Link.condition?).flatMap gather := by
  induction links generalizing filter with
  | nil => simp
  | cons link rest ih =>
    have conditions : (link :: rest).filterMap Link.condition? =
        link.condition?.toList ++ rest.filterMap Link.condition? := by
      simp [List.filterMap_eq_flatMap_toList]
    rw [List.map_cons, List.foldl_cons, ih, List.flatMap_append, gathers.refilter, conditions,
      ← List.flatMap_append, List.append_assoc]

theorem faults_ne_nil_iff {condition : Condition} :
    condition.faults ≠ [] ↔ ∃ node ∈ condition.nodes, ∃ fault, node.Malformed fault := by
  rw [← exists_firstFault_iff]
  simp only [firstFault_iff]
  cases condition.faults <;> simp

theorem faultsOf_ne_nil_iff {conditions : List Condition} :
    faultsOf conditions ≠ [] ↔
      ∃ condition ∈ conditions, ∃ node ∈ condition.nodes, ∃ fault, node.Malformed fault := by
  simp only [← faults_ne_nil_iff, faultsOf_eq_flatMap, ne_eq, List.flatMap_eq_nil_iff, not_forall,
    exists_prop]

end Condition

theorem Query.data_of_writesFilter {query : Query} (filtered : query.WritesFilter) :
    query.data = query.filter.toList.flatMap Condition.data := by
  rcases filtered with chosen | chosen
  · cases filter : query.filter <;> simp [data, terms, chosen, filterTerms, filter, Condition.data]
  · cases filter : query.filter <;> simp [data, terms, chosen, filterTerms, filter, Condition.data]

namespace Draft

/-- A draft after links, one after the other. -/
def chain (draft : Draft) (links : List Link) : Draft :=
  (draft.editAll (links.map Link.edit)).value

/-- The conditions that a chain is made of: the filter it starts from and those it adds. -/
def conditions (draft : Draft) (links : List Link) : List Condition :=
  draft.query.filter.toList ++ links.filterMap Link.condition?

variable (draft : Draft) (links : List Link)

theorem value_edit_link (link : Link) :
    (draft.edit link.edit).value =
      draft.withQuery
        { draft.query with filter := link.edit.refilter draft.query.filter } := by
  obtain ⟨⟨_, _, _, _, filter, _, _, _⟩, _⟩ := draft
  cases link <;> cases filter <;> rfl

/-- A chain changes the filter and nothing else. -/
theorem chain_eq :
    draft.chain links =
      draft.withQuery
        { draft.query with
          filter := (links.map Link.edit).foldl Edit.refilter draft.query.filter } := by
  induction links generalizing draft with
  | nil => rfl
  | cons link rest ih =>
    rw [chain, List.map_cons, editAll_cons, Logged.value_bind, value_edit_link]
    exact ih _

theorem filter_chain :
    (draft.chain links).query.filter =
      (links.map Link.edit).foldl Edit.refilter draft.query.filter := by
  rw [chain_eq]
  rfl

theorem filterFaults_chain :
    (draft.chain links).query.filterFaults = Condition.faultsOf (draft.conditions links) := by
  have gathered := Condition.gathers_faults.chain draft.query.filter links
  rw [← filter_chain] at gathered
  rw [Condition.faultsOf_eq_flatMap, conditions, ← gathered, Query.filterFaults]
  cases (draft.chain links).query.filter <;> simp

variable {draft}

theorem data_chain (filtered : draft.query.WritesFilter) :
    (draft.chain links).query.data = (draft.conditions links).flatMap Condition.data := by
  have still : (draft.chain links).query.WritesFilter := by
    rw [chain_eq]
    exact filtered
  rw [Query.data_of_writesFilter still, filter_chain]
  exact Condition.gathers_data.chain draft.query.filter links

/-- What writing gives after a chain is what rendering its conditions one after the other gives:
the first of their errors, or the data of all of them. -/
theorem value_writeIn_chain (dialect : Dialect) (named : draft.query.hasTable = true)
    (filtered : draft.query.WritesFilter) :
    ((draft.chain links).writeIn dialect).value =
      ((Condition.renderAll (draft.conditions links)).mapError .invalidCondition).map
        fun fragments =>
          ⟨(draft.chain links).query.spell dialect Term.slotText,
            fragments.flatMap Fragment.binds⟩ := by
  have stillNamed : (draft.chain links).query.hasTable = true := by
    rw [chain_eq]
    exact named
  have stillFiltered : (draft.chain links).query.WritesFilter := by
    rw [chain_eq]
    exact filtered
  rw [writeIn, Dialect.value_write, Query.error?_of_writesFilter stillNamed stillFiltered,
    filterFaults_chain, data_chain links filtered, Condition.renderAll_eq]
  cases Condition.faultsOf (draft.conditions links) with
  | nil => simp [Except.map, Except.mapError, List.flatMap_map, Condition.spelling]
  | cons fault others => rfl

/-- The value of a filter after a chain is computed along the chain. -/
theorem holds_chain (truth : Nat → Bool) :
    (draft.chain links).query.filter.map (Condition.holds truth 0) =
      (links.foldl (Link.judge truth) (.ofFilter truth draft.query.filter)).value := by
  have judged : links.foldl (Link.judge truth) (.ofFilter truth draft.query.filter) =
      .ofFilter truth
        (links.foldl (fun filter link => link.edit.refilter filter) draft.query.filter) :=
    List.foldl_hom (Verdict.ofFilter truth) (Link.judge_ofFilter truth)
  rw [filter_chain, List.foldl_map, judged, Verdict.value_ofFilter]

end Draft

/-- A filter that is chained from conditions fails at the first malformed one of them, and binds
the data of all of them in the order of the chain, whatever joins and negates them. Its value is
what the chain makes of the values of its conditions from left to right. -/
theorem Draft.write_chain (draft : Draft) (links : List Link) (dialect : Dialect) {table : String}
    (named : draft.query.table = some table) (tableText : table ≠ "")
    (filtered : draft.query.WritesFilter) :
    ((∃ error, ((draft.chain links).writeIn dialect).value = .error error) ↔
        ∃ condition ∈ draft.conditions links, ∃ node ∈ condition.nodes, ∃ fault,
          node.Malformed fault) ∧
      (∀ fault, Condition.renderAll (draft.conditions links) = .error fault →
        ((draft.chain links).writeIn dialect).value = .error (.invalidCondition fault)) ∧
      (∀ fragments, Condition.renderAll (draft.conditions links) = .ok fragments →
        ∃ text, ((draft.chain links).writeIn dialect).value =
          .ok ⟨text, fragments.flatMap Fragment.binds⟩) ∧
      ∀ truth, (draft.chain links).query.filter.map (Condition.holds truth 0) =
        (links.foldl (Link.judge truth) (.ofFilter truth draft.query.filter)).value := by
  have written := value_writeIn_chain links dialect (Query.hasTable_of_table named tableText)
    filtered
  rw [written]
  refine ⟨?_, ?_, ?_, holds_chain links⟩
  · rw [← Condition.faultsOf_ne_nil_iff, Condition.renderAll_eq]
    cases Condition.faultsOf (draft.conditions links) <;> simp [Except.map, Except.mapError]
  · intro fault refused
    rw [refused]
    rfl
  · intro fragments rendered
    rw [rendered]
    exact ⟨_, rfl⟩

/-- A deletion without a filter as yet. -/
def Draft.unfiltered : Draft where
  query := { operation := some .delete, table := some "t" }
  dialect := .standard

/-- A negation that comes too early, and two that count. The last condition is malformed. -/
def Link.wavering : List Link :=
  [.negate, .combine .any (.eq "a" (.bind (.int 1))), .negate,
    .combine .all (.all [.eq "b" (.bind (.int 2)), .negation (.eq "c" (.raw "d"))]), .negate,
    .combine .any (.any [])]

theorem Draft.write_chain_wavering :
    Draft.unfiltered.query.table = some "t" ∧ "t" ≠ "" ∧ Draft.unfiltered.query.WritesFilter ∧
      ((Draft.unfiltered.chain Link.wavering).writeIn .cql).value =
        .error (.invalidCondition (.emptyGroup .any)) ∧
      (∃ text, ((Draft.unfiltered.chain Link.wavering.dropLast).writeIn .cql).value =
        .ok ⟨text, [.int 1, .int 2]⟩) ∧
      (Draft.unfiltered.chain Link.wavering.dropLast).query.filter.map
        (Condition.holds (· = 1) 0) = some false := by
  have filtered : Draft.unfiltered.query.WritesFilter := .inr rfl
  obtain ⟨-, refused, -, -⟩ :=
    Draft.unfiltered.write_chain Link.wavering .cql rfl (by decide) filtered
  obtain ⟨-, -, rendered, judged⟩ :=
    Draft.unfiltered.write_chain Link.wavering.dropLast .cql rfl (by decide) filtered
  exact ⟨rfl, by decide, filtered, refused _ rfl, rendered _ rfl, judged _⟩

end BoundQuery
