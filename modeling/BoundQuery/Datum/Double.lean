/-!
# Doubles

A double is kept as its IEEE 754 binary64 word, so that it is bound exactly as given. Equality is
that of the standard: a NaN equals nothing, and the two zeros equal each other.
-/

set_option autoImplicit false

namespace BoundQuery

/-- A binary64 number, by its word. Distinct words may stand for equal numbers. -/
structure Double where
  bits : UInt64

namespace Double

/-- The word without its sign bit. -/
def magnitude (number : Double) : Nat :=
  number.bits.toNat % 0x8000000000000000

/-- Whether the exponent field is full and the fraction is not zero. -/
def isNaN (number : Double) : Bool :=
  0x7FF0000000000000 < number.magnitude

def isZero (number : Double) : Bool :=
  number.magnitude == 0

/-- Equality of numbers: it is neither reflexive nor equality of words. -/
def equals (left right : Double) : Bool :=
  !left.isNaN && !right.isNaN && (left.bits == right.bits || (left.isZero && right.isZero))

instance : BEq Double := ⟨equals⟩

theorem beq_eq (left right : Double) : (left == right) = left.equals right := rfl

/-- A number equals itself exactly when it is not a NaN. -/
theorem beq_self (number : Double) : (number == number) = !number.isNaN := by
  simp [beq_eq, equals]

theorem beq_comm (left right : Double) : (left == right) = (right == left) := by
  rw [beq_eq, beq_eq, equals, equals, Bool.and_comm (!left.isNaN), Bool.and_comm left.isZero,
    BEq.comm (α := UInt64)]

theorem beq_trans {left middle right : Double} (first : (left == middle) = true)
    (second : (middle == right) = true) : (left == right) = true := by
  simp only [beq_eq, equals, Bool.and_eq_true, Bool.or_eq_true, beq_iff_eq] at *
  obtain ⟨⟨leftNumber, _⟩, sameLeft⟩ := first
  obtain ⟨⟨_, rightNumber⟩, sameRight⟩ := second
  refine ⟨⟨leftNumber, rightNumber⟩, ?_⟩
  have zeroOfBits {a b : Double} (same : a.bits = b.bits) : a.isZero = b.isZero := by
    simp [isZero, magnitude, same]
  rcases sameLeft with same | ⟨leftZero, middleZero⟩
  · rcases sameRight with same' | ⟨middleZero, rightZero⟩
    · exact .inl (same.trans same')
    · exact .inr ⟨(zeroOfBits same).trans middleZero, rightZero⟩
  · rcases sameRight with same' | ⟨_, rightZero⟩
    · exact .inr ⟨leftZero, (zeroOfBits same').symm.trans middleZero⟩
    · exact .inr ⟨leftZero, rightZero⟩

end Double

end BoundQuery
