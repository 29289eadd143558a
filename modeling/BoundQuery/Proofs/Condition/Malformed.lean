import BoundQuery.Condition.Spelling

/-!
# Malformed nodes

Which nodes of a condition keep it from being written, told node by node. A node is malformed by
itself, whatever stands above or below it; the first one in the order of reading is the one that
is reported.
-/

set_option autoImplicit false

namespace BoundQuery

namespace Condition

mutual

/-- The nodes of a condition, each of them before its own members and these from left to right. -/
def nodes : Condition → List Condition
  | .compare comparator column right => [.compare comparator column right]
  | .group connective members => .group connective members :: nodesOf members
  | .negation negated => .negation negated :: nodes negated

def nodesOf : List Condition → List Condition
  | [] => []
  | member :: rest => nodes member ++ nodesOf rest

end

@[simp] theorem nodes_compare (comparator : Comparator) (column : String) (right : Term) :
    nodes (.compare comparator column right) = [.compare comparator column right] := rfl

@[simp] theorem nodes_group (connective : Connective) (members : List Condition) :
    nodes (.group connective members) = .group connective members :: nodesOf members := rfl

@[simp] theorem nodes_negation (negated : Condition) :
    nodes (.negation negated) = .negation negated :: nodes negated := rfl

@[simp] theorem nodesOf_nil : nodesOf [] = [] := rfl

@[simp] theorem nodesOf_cons (member : Condition) (rest : List Condition) :
    nodesOf (member :: rest) = nodes member ++ nodesOf rest := rfl

theorem nodesOf_eq_flatMap (members : List Condition) :
    nodesOf members = members.flatMap nodes := by
  induction members with
  | nil => rfl
  | cons member rest ih => simp [ih]

/-- A node that cannot be written, with its fault. A comparison has one fault at most: a blank
right side counts only beside a column. -/
inductive Malformed : Condition → ConditionFault → Prop where
  | emptyGroup {connective : Connective} :
      Malformed (.group connective []) (.emptyGroup connective)
  | blankColumn {comparator : Comparator} {column : String} {right : Term} :
      Text.isBlank column = true →
      Malformed (.compare comparator column right) (.blankColumn comparator)
  | blankRaw {comparator : Comparator} {column text : String} :
      Text.isBlank column = false → Text.isBlank text = true →
      Malformed (.compare comparator column (.raw text)) (.blankRaw column comparator)

/-- The first malformed node in the order of reading has the fault. -/
def FirstFault (condition : Condition) (fault : ConditionFault) : Prop :=
  ∃ before node after, condition.nodes = before ++ node :: after ∧ node.Malformed fault ∧
    ∀ earlier ∈ before, ∀ other, ¬ earlier.Malformed other

def nodeFault? : Condition → Option ConditionFault
  | .compare comparator column right => comparisonFault? comparator column right
  | .group connective [] => some (.emptyGroup connective)
  | .group _ (_ :: _) => none
  | .negation _ => none

@[simp] theorem nodeFault?_compare (comparator : Comparator) (column : String) (right : Term) :
    nodeFault? (.compare comparator column right) = comparisonFault? comparator column right := rfl

theorem comparisonFault?_eq_some_iff {comparator : Comparator} {column : String} {right : Term}
    {fault : ConditionFault} :
    comparisonFault? comparator column right = some fault ↔
      Malformed (.compare comparator column right) fault := by
  unfold comparisonFault?
  constructor
  · intro found
    split at found
    · rename_i columnBlank
      cases found
      exact .blankColumn columnBlank
    · rename_i columnWritten
      split at found
      · rename_i rightBlank
        cases found
        cases right with
        | raw text => exact .blankRaw (Bool.eq_false_iff.mpr columnWritten) rightBlank
        | literal datum | bind datum => simp [Term.isBlankRaw] at rightBlank
      · cases found
  · intro malformed
    cases malformed with
    | blankColumn columnBlank => rw [if_pos columnBlank]
    | blankRaw columnWritten textBlank =>
      rw [if_neg (Bool.eq_false_iff.mp columnWritten), if_pos]
      exact textBlank

theorem nodeFault?_eq_some_iff {node : Condition} {fault : ConditionFault} :
    node.nodeFault? = some fault ↔ node.Malformed fault := by
  cases node with
  | compare comparator column right => exact comparisonFault?_eq_some_iff
  | group connective members =>
    cases members with
    | nil =>
      constructor
      · intro found
        cases found
        exact .emptyGroup
      · intro malformed
        cases malformed
        rfl
    | cons member rest =>
      constructor
      · intro found
        cases found
      · intro malformed
        cases malformed
  | negation negated =>
    constructor
    · intro found
      cases found
    · intro malformed
      cases malformed

theorem nodeFault?_eq_none_iff {node : Condition} :
    node.nodeFault? = none ↔ ∀ fault, ¬ node.Malformed fault := by
  rw [Option.eq_none_iff_forall_ne_some]
  constructor
  · intro noFault fault malformed
    exact noFault fault (nodeFault?_eq_some_iff.mpr malformed)
  · intro wellFormed fault found
    exact wellFormed fault (nodeFault?_eq_some_iff.mp found)

mutual

/-- The faults of a condition are those of its nodes, in their order. -/
theorem faults_eq_filterMap : ∀ condition : Condition,
    condition.faults = condition.nodes.filterMap nodeFault?
  | .compare comparator column right => by
    rw [faults_compare, nodes_compare, ← nodeFault?_compare]
    cases found : nodeFault? (.compare comparator column right) with
    | none => rw [List.filterMap_cons_none found, Option.toList_none, List.filterMap_nil]
    | some fault => rw [List.filterMap_cons_some found, Option.toList_some, List.filterMap_nil]
  | .group connective [] => rfl
  | .group connective (member :: rest) => by
    rw [faults_group_cons, nodes_group, List.filterMap_cons_none rfl]
    exact faultsOf_eq_filterMap (member :: rest)
  | .negation negated => by
    rw [faults_negation, nodes_negation, List.filterMap_cons_none rfl]
    exact faults_eq_filterMap negated

theorem faultsOf_eq_filterMap : ∀ members : List Condition,
    faultsOf members = (nodesOf members).filterMap nodeFault?
  | [] => rfl
  | member :: rest => by
    rw [faultsOf_cons, nodesOf_cons, List.filterMap_append, faults_eq_filterMap member,
      faultsOf_eq_filterMap rest]

end

theorem wellFormed_iff {condition : Condition} :
    condition.WellFormed ↔ ∀ node ∈ condition.nodes, ∀ fault, ¬ node.Malformed fault := by
  rw [WellFormed, faults_eq_filterMap, List.filterMap_eq_nil_iff]
  simp only [nodeFault?_eq_none_iff]

theorem firstFault_iff {condition : Condition} {fault : ConditionFault} :
    condition.FirstFault fault ↔ condition.faults.head? = some fault := by
  rw [faults_eq_filterMap, List.head?_filterMap, List.findSome?_eq_some_iff, FirstFault]
  simp only [nodeFault?_eq_some_iff, nodeFault?_eq_none_iff]

/-- A first fault exists as soon as there is any malformed node. -/
theorem exists_firstFault_iff {condition : Condition} :
    (∃ fault, condition.FirstFault fault) ↔
      ∃ node ∈ condition.nodes, ∃ fault, node.Malformed fault := by
  constructor
  · rintro ⟨fault, before, node, after, nodes, malformed, -⟩
    refine ⟨node, ?_, fault, malformed⟩
    rw [nodes]
    exact List.mem_append_right before List.mem_cons_self
  · rintro ⟨node, isNode, fault, malformed⟩
    have isFault : fault ∈ condition.faults := by
      rw [faults_eq_filterMap]
      exact List.mem_filterMap.mpr ⟨node, isNode, nodeFault?_eq_some_iff.mpr malformed⟩
    obtain ⟨first, others, faults⟩ := List.exists_cons_of_ne_nil (List.ne_nil_of_mem isFault)
    refine ⟨first, firstFault_iff.mpr ?_⟩
    rw [faults, List.head?_cons]

theorem render_eq_error_iff_firstFault {condition : Condition} {fault : ConditionFault} :
    condition.render = .error fault ↔ condition.FirstFault fault := by
  rw [render_eq_error_iff, firstFault_iff]

end Condition

end BoundQuery
