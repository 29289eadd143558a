/-!
# Timestamps

A timestamp is a local date and time of the proleptic Gregorian calendar with its offset from UTC.
The fields are kept as given; two timestamps are equal when they name the same instant.
-/

set_option autoImplicit false

namespace BoundQuery

/-- A local date and time and its offset. Nothing here requires the fields to be in range. -/
structure Timestamp where
  year : Int
  month : Nat
  day : Nat
  hour : Nat
  minute : Nat
  second : Nat
  nanosecond : Nat
  offset : Int

namespace Timestamp

/-- Every fourth year is a leap year, except those of the centuries not divisible by 400. -/
def isLeapYear (year : Int) : Bool :=
  year % 4 == 0 && (year % 100 != 0 || year % 400 == 0)

def daysBeforeYear (year : Int) : Int :=
  (year - 1) * 365 + (year - 1) / 4 - (year - 1) / 100 + (year - 1) / 400

def daysBeforeMonths : List Nat :=
  [0, 31, 59, 90, 120, 151, 181, 212, 243, 273, 304, 334]

def daysBeforeMonth (year : Int) (month : Nat) : Nat :=
  daysBeforeMonths.getD (month - 1) 0 + if isLeapYear year && 2 < month then 1 else 0

/-- The number of the local day, the first day of year 1 being day 0. -/
def dayNumber (stamp : Timestamp) : Int :=
  daysBeforeYear stamp.year + daysBeforeMonth stamp.year stamp.month + stamp.day - 1

/-- Nanoseconds from the start of year 1 in UTC to the instant that the timestamp names. -/
def instant (stamp : Timestamp) : Int :=
  (((stamp.dayNumber * 24 + stamp.hour) * 60 + stamp.minute) * 60 + stamp.second - stamp.offset)
    * 1000000000 + stamp.nanosecond

instance : BEq Timestamp := ⟨fun left right => left.instant == right.instant⟩

theorem beq_iff {left right : Timestamp} :
    (left == right) = true ↔ left.instant = right.instant :=
  beq_iff_eq (α := Int)

/-- A year is as long as the distance between its first day and that of the next. -/
theorem daysBeforeYear_succ (year : Int) :
    daysBeforeYear (year + 1) = daysBeforeYear year + if isLeapYear year then 366 else 365 := by
  simp only [daysBeforeYear, isLeapYear, Bool.and_eq_true, Bool.or_eq_true, beq_iff_eq,
    bne_iff_ne]
  split <;> omega

end Timestamp

end BoundQuery
