import MediaSplit.Time.Nanoseconds

/-!
Contract: rational speed factors on instants.

Owns: `Time.Linear`, a ratio of two positive integers, and `Linear.apply`,
which scales an instant to the nearest nanosecond, halves away from zero.

A ratio of equal parts changes nothing, whatever the parts are.
-/

set_option autoImplicit false

namespace MediaSplit.Time

/-- A positive ratio by which instants are multiplied. -/
structure Linear where
  numerator : Int
  denominator : Int
  numerator_pos : 0 < numerator := by decide
  denominator_pos : 0 < denominator := by decide
  deriving DecidableEq, Repr

namespace Linear

/-- The ratio one. -/
def identity : Linear := ⟨1, 1, by decide, by decide⟩

instance : Inhabited Linear := ⟨identity⟩

/-- The ratio of two integers, refused unless both are positive. -/
def of? (numerator denominator : Int) : Option Linear :=
  if h : 0 < numerator ∧ 0 < denominator then
    some ⟨numerator, denominator, h.1, h.2⟩
  else none

/-- Whether the ratio is one. -/
def isIdentity (factor : Linear) : Bool :=
  factor.numerator == factor.denominator

/-- The quotient of two integers, to the nearest integer, halves away from
zero. -/
def roundedQuotient (dividend divisor : Int) : Int :=
  if 0 ≤ dividend then Int.tdiv (dividend + Int.tdiv divisor 2) divisor
  else Int.tdiv (dividend - Int.tdiv divisor 2) divisor

/-- Scales an instant. -/
def apply (factor : Linear) (instant : Int) : Int :=
  if factor.isIdentity then instant
  else wrapped (roundedQuotient (instant * factor.numerator) factor.denominator)

end Linear

end MediaSplit.Time
