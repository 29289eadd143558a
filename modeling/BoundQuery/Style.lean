import BoundQuery.Condition.Rendering
import BoundQuery.Notice

/-!
# Styles

A style says how the parts of a statement are written. The parts are independent: a style may give
any text and any data for each of them, and only a filter may fail. Two styles are built in, the
general one and that of CQL; they differ in the outermost parentheses of a filter.
-/

set_option autoImplicit false

namespace BoundQuery

inductive StatementError where
  | unsupportedOperation (name : String)
  | invalidCondition (fault : ConditionFault)
  | missingTable (operation : Operation)
  deriving DecidableEq

namespace StatementError

def noOperation : StatementError := .unsupportedOperation "<none>"

def message : StatementError → String
  | .unsupportedOperation name => "unsupported operation: " ++ name
  | .invalidCondition fault => "invalid clause: " ++ fault.describe
  | .missingTable operation => "no table given for " ++ operation.word ++ " query"

end StatementError

structure Style where
  name : String
  columns : List String → Fragment
  table : String → Fragment
  values : List Term → Logged Fragment
  filter : Condition → Except StatementError Fragment
  /-- The order of the rows, absent when the statement shall not say any. -/
  order : List String → Option Fragment
  offset : Option UInt64 → Option Fragment

namespace Style

def listSeparator : String := ", "

/-- The slots of a list of values, the first of them having the given index. Blank verbatim text
leaves no slot, but it counts as a value in the numbering. -/
def slotsFrom (index : Nat) : List Term → Logged (List Fragment)
  | [] => pure []
  | term :: rest =>
    if term.isBlankRaw then do
      Logged.note (.slotSkipped index)
      slotsFrom (index + 1) rest
    else do
      let slots ← slotsFrom (index + 1) rest
      pure (term.fragment :: slots)

def listValues (values : List Term) : Logged Fragment := do
  let slots ← slotsFrom 0 values
  pure (.ofPieces listSeparator (slots.map .fragment))

def standard : Style where
  name := "default"
  columns columns := .ofText (listSeparator.intercalate columns)
  table table := .ofText table
  values := listValues
  filter condition := condition.render.mapError .invalidCondition
  order columns :=
    if columns.isEmpty then none
    else some (.ofText ("order by " ++ listSeparator.intercalate columns))
  offset offset := offset.map fun count => .ofText ("offset " ++ toString count.toNat)

/-- The style of CQL, where a filter that is a group stands without its own parentheses. -/
def cql : Style :=
  { standard with
    name := "cql"
    filter := fun condition =>
      (standard.filter condition).map fun fragment =>
        if condition.isGroup then fragment.unparenthesized else fragment }

@[simp] theorem slotsFrom_nil (index : Nat) : slotsFrom index [] = pure [] := rfl

theorem slotsFrom_cons_of_isBlankRaw {term : Term} (blank : term.isBlankRaw = true) (index : Nat)
    (rest : List Term) :
    slotsFrom index (term :: rest) =
      { slotsFrom (index + 1) rest with
        log := .slotSkipped index :: (slotsFrom (index + 1) rest).log } := by
  simp [slotsFrom, blank, bind, Logged.note]

theorem slotsFrom_cons_of_not_isBlankRaw {term : Term} (written : term.isBlankRaw = false)
    (index : Nat) (rest : List Term) :
    slotsFrom index (term :: rest) =
      (term.fragment :: ·) <$> slotsFrom (index + 1) rest := by
  simp [slotsFrom, written, bind, Functor.map, pure]

end Style

end BoundQuery
