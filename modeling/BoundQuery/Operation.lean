/-!
# Operations

The kinds of statement that a query can ask for.
-/

set_option autoImplicit false

namespace BoundQuery

inductive Operation where
  | select
  | insert
  | delete
  deriving DecidableEq

namespace Operation

def word : Operation → String
  | .select => "select"
  | .insert => "insert"
  | .delete => "delete"

theorem word_injective {left right : Operation} (same : left.word = right.word) :
    left = right := by
  cases left <;> cases right <;> first | rfl | exact absurd same (by decide)

end Operation

end BoundQuery
