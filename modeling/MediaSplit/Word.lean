import MediaSplit.Fault
import MediaSplit.Power

/-!
Contract: sums and differences in machine words.

Owns: `Word.sum`, the sum of two sizes or positions, and `Word.difference`, the
distance of two instants, each with the numbers that it is there for.

Does **not** own: sums that stop at the end of their range. Those never fail,
and stand with the formats that use them.
-/

set_option autoImplicit false

namespace MediaSplit.Word

/-- Sizes and positions lie below it. -/
def limit : Nat := 2 ^ 64

/-- Whether a number is a signed one of 64 bits, as instants are. -/
def IsInstant (instant : Int) : Prop := -(2 ^ 63) ≤ instant ∧ instant < 2 ^ 63

instance (instant : Int) : Decidable (IsInstant instant) :=
  inferInstanceAs (Decidable (_ ∧ _))

/-- The sum of two sizes or positions. -/
def sum (left right : Nat) : Except Fault Nat :=
  if left + right < limit then .ok (left + right) else .error .overflow

/-- The time from `start` to an instant. -/
def difference (instant start : Int) : Except Fault Int :=
  if IsInstant (instant - start) then .ok (instant - start) else .error .overflow

theorem sum_eq_ok_iff {left right total : Nat} :
    sum left right = .ok total ↔ left + right = total ∧ total < limit := by
  unfold sum
  split
  next fits =>
    refine ⟨fun isTotal => ?_, fun isTotal => congrArg Except.ok isTotal.1⟩
    cases isTotal
    exact ⟨rfl, fits⟩
  next leaves =>
    refine ⟨(nomatch ·), fun isTotal => ?_⟩
    obtain ⟨rfl, fits⟩ := isTotal
    exact absurd fits leaves

theorem sum_of_lt {left right : Nat} (fits : left + right < limit) :
    sum left right = .ok (left + right) := if_pos fits

theorem difference_of_isInstant {instant start : Int} (fits : IsInstant (instant - start)) :
    difference instant start = .ok (instant - start) := if_pos fits

theorem difference_eq_ok_iff {instant start distance : Int} :
    difference instant start = .ok distance ↔ instant - start = distance ∧ IsInstant distance := by
  unfold difference
  split
  next fits =>
    refine ⟨fun isDistance => ?_, fun isDistance => congrArg Except.ok isDistance.1⟩
    cases isDistance
    exact ⟨rfl, fits⟩
  next leaves =>
    refine ⟨(nomatch ·), fun isDistance => ?_⟩
    obtain ⟨rfl, fits⟩ := isDistance
    exact absurd fits leaves

end MediaSplit.Word
