import BoundQuery.Proofs.Condition.Malformed
import BoundQuery.Proofs.Statement.Layout
import BoundQuery.Proofs.Text.Chunk

/-!
# Refusals

Which queries cannot be written, and with what error, once there is a table. The filter alone
decides it: its first malformed node is reported, by every dialect alike. An insertion writes no
filter, so nothing can be wrong with it.

The message of an error holds all that the error is about, and no two errors that a dialect can give
have one message. A reason of a style's own is free text, about which nothing is said.
-/

set_option autoImplicit false

namespace BoundQuery

theorem Dialect.filter_eq_error_iff_firstFault {dialect : Dialect} {condition : Condition}
    {error : StatementError} :
    dialect.style.filter condition = .error error ↔
      ∃ fault, condition.FirstFault fault ∧ error = .invalidCondition fault := by
  simp only [filter_eq_error_iff, Condition.firstFault_iff]

namespace Query

variable {query : Query}

theorem hasTable_of_table {table : String} (named : query.table = some table)
    (tableText : table ≠ "") : query.hasTable = true := by
  simp [hasTable, named, tableText]

theorem error?_of_insert (named : query.hasTable = true) (chosen : query.operation = some .insert) :
    query.error? = none := by
  simp [error?, chosen, named]

theorem filterFaults_head?_eq_some_iff {fault : ConditionFault} :
    query.filterFaults.head? = some fault ↔
      ∃ condition, query.filter = some condition ∧ condition.FirstFault fault := by
  unfold filterFaults
  cases query.filter with
  | none => simp
  | some condition => simp [Condition.firstFault_iff]

/-- An error is about the operation, the table or a malformed node of the filter. -/
theorem error?_cases {error : StatementError} (found : query.error? = some error) :
    error = .noOperation ∨ (∃ operation, error = .missingTable operation) ∨
      ∃ (node : Condition) (fault : ConditionFault),
        node.Malformed fault ∧ error = .invalidCondition fault := by
  unfold error? at found
  split at found
  · cases found
    exact .inl rfl
  · rename_i operation chosen
    split at found
    · cases found
      exact .inr (.inl ⟨operation, rfl⟩)
    · split at found
      · cases found
      · obtain ⟨fault, isFirst, rfl⟩ := Option.map_eq_some_iff.mp found
        obtain ⟨condition, -, before, node, after, -, malformed, -⟩ :=
          filterFaults_head?_eq_some_iff.mp isFirst
        exact .inr (.inr ⟨node, fault, malformed, rfl⟩)

end Query

/-- Writing fails at the first malformed node in the order of reading and at nothing else: a
condition by itself, a filter in a dialect, and a selection or a deletion that has a table. An
insertion that has a table is always written. -/
theorem Dialect.refuses_first_fault (dialect : Dialect) :
    (∀ condition : Condition,
      (∀ fault, condition.render = .error fault ↔ condition.FirstFault fault) ∧
      (∀ error, dialect.style.filter condition = .error error ↔
        ∃ fault, condition.FirstFault fault ∧ error = .invalidCondition fault) ∧
      ((∃ fault, condition.FirstFault fault) ↔
        ∃ node ∈ condition.nodes, ∃ fault, node.Malformed fault)) ∧
    ∀ (query : Query) (table : String), query.table = some table → table ≠ "" →
      (query.WritesFilter → ∀ error, (dialect.style.write query).value = .error error ↔
        ∃ condition fault, query.filter = some condition ∧ condition.FirstFault fault ∧
          error = .invalidCondition fault) ∧
      (query.operation = some .insert →
        ∃ statement, (dialect.style.write query).value = .ok statement) := by
  constructor
  · intro condition
    refine ⟨?_, ?_, Condition.exists_firstFault_iff⟩
    · intro fault
      exact Condition.render_eq_error_iff_firstFault
    · intro error
      exact filter_eq_error_iff_firstFault
  · intro query table named tableText
    have hasTable := Query.hasTable_of_table named tableText
    constructor
    · intro chosen error
      rw [write_eq_error_iff, Query.error?_of_writesFilter hasTable chosen, Option.map_eq_some_iff]
      constructor
      · rintro ⟨fault, isFirst, rfl⟩
        obtain ⟨condition, filter, first⟩ := Query.filterFaults_head?_eq_some_iff.mp isFirst
        exact ⟨condition, fault, filter, first, rfl⟩
      · rintro ⟨condition, fault, filter, first, rfl⟩
        exact ⟨fault, Query.filterFaults_head?_eq_some_iff.mpr ⟨condition, filter, first⟩, rfl⟩
    · intro chosen
      exact ⟨_, write_eq_ok_iff.mpr ⟨Query.error?_of_insert hasTable chosen, rfl⟩⟩

/-- A filter with two malformed nodes after a sound one, of which the first has two flaws. -/
def Condition.flawed : Condition :=
  .any [.eq "size" (.bind (.int 3)), .negation (.all [.gt " " (.raw "")]), .any []]

def Query.flawed (operation : Operation) : Query where
  operation := some operation
  table := some "fruit"
  filter := some .flawed

theorem Dialect.refuses_first_fault_flawed :
    (Query.flawed .delete).table = some "fruit" ∧ "fruit" ≠ "" ∧
      Condition.flawed.FirstFault (.blankColumn .gt) ∧
      (Dialect.cql.style.write (.flawed .delete)).value =
        .error (.invalidCondition (.blankColumn .gt)) ∧
      (StatementError.invalidCondition (.blankColumn .gt)).message =
        "invalid clause: `>` comparison without a column" ∧
      ∃ statement, (Dialect.cql.style.write (.flawed .insert)).value = .ok statement := by
  obtain ⟨conditions, queries⟩ := Dialect.refuses_first_fault .cql
  obtain ⟨rendering, -, -⟩ := conditions .flawed
  have first : Condition.flawed.FirstFault (.blankColumn .gt) := (rendering _).mp rfl
  obtain ⟨deletion, -⟩ := queries (.flawed .delete) "fruit" rfl (by decide)
  obtain ⟨-, insertion⟩ := queries (.flawed .insert) "fruit" rfl (by decide)
  refine ⟨rfl, by decide, first, ?_, rfl, insertion rfl⟩
  exact (deletion (.inr rfl) _).mpr ⟨.flawed, _, rfl, first, rfl⟩

namespace Text

theorem infix_after (before text : String) : text.toList <:+: (before ++ text).toList := by
  rw [String.toList_append]
  exact (List.suffix_append _ _).isInfix

theorem infix_between (before text after : String) :
    text.toList <:+: (before ++ text ++ after).toList := by
  rw [String.toList_append, String.toList_append]
  exact List.infix_append _ _ _

end Text

namespace ConditionFault

/-- What a fault is about: the words of the node at fault, or the reason that a style gives. -/
def names : ConditionFault → List String
  | .emptyGroup connective => [connective.word]
  | .blankColumn comparator => [comparator.symbol]
  | .blankRaw column comparator => [column, comparator.symbol]
  | .refused reason => [reason]

/-- The description of a fault leaves out nothing that the fault is about. -/
theorem infix_describe (fault : ConditionFault) :
    ∀ name ∈ fault.names, name.toList <:+: fault.describe.toList := by
  cases fault with
  | emptyGroup connective | blankColumn comparator =>
    exact List.forall_mem_singleton.mpr (Text.infix_between _ _ _)
  | blankRaw column comparator =>
    refine List.forall_mem_cons.mpr
      ⟨?_, List.forall_mem_singleton.mpr (Text.infix_between _ _ _)⟩
    rw [describe, String.append_assoc, String.append_assoc]
    exact Text.infix_between _ _ _
  | refused reason => exact List.forall_mem_singleton.mpr List.infix_rfl

@[simp] theorem chunks_describe_emptyGroup (connective : Connective) :
    Text.chunks (describe (.emptyGroup connective)) =
      ["`" ++ connective.word ++ "`", "without", "children"] := by
  cases connective <;> rfl

@[simp] theorem chunks_describe_blankColumn (comparator : Comparator) :
    Text.chunks (describe (.blankColumn comparator)) =
      ["`" ++ comparator.symbol ++ "`", "comparison", "without", "a", "column"] := by
  cases comparator <;> rfl

@[simp] theorem chunks_describe_blankRaw (column : String) (comparator : Comparator) :
    Text.chunks (describe (.blankRaw column comparator)) =
      Text.chunks ("`" ++ column) ++
        [comparator.symbol ++ "`", "with", "a", "blank", "raw", "value"] := by
  have spaced : describe (.blankRaw column comparator) =
      "`" ++ column ++ " " ++ (comparator.symbol ++ "` with a blank raw value") := by
    rw [describe, ← String.append_assoc]
  rw [spaced, Text.chunks_append_space]
  congr 1
  cases comparator <;> rfl

/-- Malformed nodes that are described alike have the same fault. -/
theorem eq_of_describe_eq {node other : Condition} {fault otherFault : ConditionFault}
    (malformed : node.Malformed fault) (otherMalformed : other.Malformed otherFault)
    (same : fault.describe = otherFault.describe) : fault = otherFault := by
  -- the last word tells the kind of the fault, and the words before it tell the rest
  have sameChunks := congrArg Text.chunks same
  have sameEnding := congrArg List.getLast? sameChunks
  cases malformed with
  | @emptyGroup connective =>
    cases otherMalformed with
    | @emptyGroup other =>
      have sameWord : connective.word = other.word := by simpa using sameChunks
      rw [Connective.word_injective sameWord]
    | blankColumn | blankRaw => simp at sameEnding
  | @blankColumn comparator =>
    cases otherMalformed with
    | @blankColumn other =>
      have sameSymbol : comparator.symbol = other.symbol := by simpa using sameChunks
      rw [Comparator.symbol_injective sameSymbol]
    | emptyGroup | blankRaw => simp at sameEnding
  | @blankRaw comparator column =>
    cases otherMalformed with
    | @blankRaw other otherColumn =>
      rw [chunks_describe_blankRaw, chunks_describe_blankRaw] at sameChunks
      obtain ⟨columns, symbols⟩ := List.append_inj' sameChunks rfl
      have sameColumn : column = otherColumn := by simpa using Text.chunks_inj columns
      have sameSymbol : comparator.symbol = other.symbol := by simpa using symbols
      rw [sameColumn, Comparator.symbol_injective sameSymbol]
    | emptyGroup | blankColumn => simp at sameEnding

end ConditionFault

namespace StatementError

def names : StatementError → List String
  | .unsupportedOperation name => [name]
  | .invalidCondition fault => fault.names
  | .missingTable operation => [operation.word]

/-- The message of an error leaves out nothing that the error is about. -/
theorem infix_message (error : StatementError) :
    ∀ name ∈ error.names, name.toList <:+: error.message.toList := by
  cases error with
  | unsupportedOperation name => exact List.forall_mem_singleton.mpr (Text.infix_after _ _)
  | invalidCondition fault =>
    intro name named
    exact (fault.infix_describe name named).trans (Text.infix_after _ _)
  | missingTable operation => exact List.forall_mem_singleton.mpr (Text.infix_between _ _ _)

theorem head?_message (error : StatementError) : error.message.toList.head? =
    some (match error with
      | .unsupportedOperation _ => 'u'
      | .invalidCondition _ => 'i'
      | .missingTable _ => 'n') := by
  have start {before text : String} {letter : Char} (first : before.toList.head? = some letter) :
      (before ++ text).toList.head? = some letter := by
    rw [String.toList_append, List.head?_append, first, Option.some_or]
  cases error with
  | unsupportedOperation name => exact start rfl
  | invalidCondition fault => exact start rfl
  | missingTable operation => exact start (start rfl)

end StatementError

/-- Queries that are refused with one message are refused with one error. -/
theorem Dialect.error_eq_of_message_eq {dialect otherDialect : Dialect} {query other : Query}
    {error otherError : StatementError}
    (refused : (dialect.style.write query).value = .error error)
    (otherRefused : (otherDialect.style.write other).value = .error otherError)
    (same : error.message = otherError.message) : error = otherError := by
  -- the first letter of a message tells the kind of the error
  have sameKind := congrArg (fun text => text.toList.head?) same
  simp only [StatementError.head?_message] at sameKind
  have otherCases := Query.error?_cases (write_eq_error_iff.mp otherRefused)
  rcases Query.error?_cases (write_eq_error_iff.mp refused) with
    rfl | ⟨operation, rfl⟩ | ⟨node, fault, malformed, rfl⟩
  · rcases otherCases with rfl | ⟨_, rfl⟩ | ⟨_, _, -, rfl⟩
    · rfl
    all_goals simp [StatementError.noOperation] at sameKind
  · rcases otherCases with rfl | ⟨otherOperation, rfl⟩ | ⟨_, _, -, rfl⟩
    case inr.inl =>
      have sameWord := (String.append_right_inj _).mp ((String.append_left_inj _).mp same)
      rw [Operation.word_injective sameWord]
    all_goals simp [StatementError.noOperation] at sameKind
  · rcases otherCases with rfl | ⟨_, rfl⟩ | ⟨_, otherFault, otherMalformed, rfl⟩
    case inr.inr =>
      have described := (String.append_right_inj _).mp same
      rw [ConditionFault.eq_of_describe_eq malformed otherMalformed described]
    all_goals simp [StatementError.noOperation] at sameKind

end BoundQuery
