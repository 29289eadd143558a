import BoundQuery.Datum.Double
import BoundQuery.Datum.Timestamp

/-!
# Data

The values that a statement can be given in place of its placeholders, and the conversions into
them. A datum is never written into the text of a statement.
-/

set_option autoImplicit false

namespace BoundQuery

/-- A value for a placeholder. Signed and unsigned integers are told apart. -/
inductive Datum where
  | null
  | bool (value : Bool)
  | int (value : Int64)
  | uint (value : UInt64)
  | double (value : Double)
  | text (value : String)
  | bytes (value : List UInt8)
  | timestamp (value : Timestamp)

namespace Datum

/-- Equality of data: doubles are compared as numbers, timestamps as instants, all else as given.
Data of different kinds are never equal. -/
def equals : Datum → Datum → Bool
  | .null, .null => true
  | .bool left, .bool right => left == right
  | .int left, .int right => left == right
  | .uint left, .uint right => left == right
  | .double left, .double right => left == right
  | .text left, .text right => left == right
  | .bytes left, .bytes right => left == right
  | .timestamp left, .timestamp right => left == right
  | _, _ => false

instance : BEq Datum := ⟨equals⟩

def text? : Datum → Option String
  | .text value => some value
  | _ => none

end Datum

class ToDatum (α : Type) where
  toDatum : α → Datum

export ToDatum (toDatum)

instance : ToDatum Datum := ⟨id⟩
instance : ToDatum Unit := ⟨fun _ => .null⟩
instance : ToDatum Bool := ⟨.bool⟩
instance : ToDatum Int64 := ⟨.int⟩
instance : ToDatum UInt64 := ⟨.uint⟩
instance : ToDatum Double := ⟨.double⟩
instance : ToDatum String := ⟨.text⟩
instance : ToDatum (List UInt8) := ⟨.bytes⟩
instance : ToDatum Timestamp := ⟨.timestamp⟩

instance : ToDatum Int32 := ⟨fun value => .int value.toInt64⟩

instance : ToDatum UInt32 := ⟨fun value => .uint value.toUInt64⟩

instance {α : Type} [ToDatum α] : ToDatum (Option α) :=
  ⟨fun value => value.elim .null toDatum⟩

@[simp] theorem toDatum_none {α : Type} [ToDatum α] : toDatum (none : Option α) = .null := rfl

@[simp] theorem toDatum_some {α : Type} [ToDatum α] (value : α) :
    toDatum (some value) = toDatum value := rfl

end BoundQuery
