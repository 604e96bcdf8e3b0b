import Mathlib.Algebra.Order.Field.Rat
import Mathlib.Algebra.Order.Field.Power
import Mathlib.Tactic.Linarith
import Mathlib.Tactic.NormNum
import Mathlib.Tactic.Positivity
import MediaSplit.Power

/-!
Contract: the double nearest to a number that is not negative.

Owns:
- `Double.HasSpacing`, how far apart doubles are where a number lies;
- `Double.RoundsTo`, the nearest double with a tie going to the even one, which
  keeps the order of numbers.

Does **not** own: the greatest double. Numbers are rounded to so many binary
digits as if exponents had no upper end.
-/

set_option autoImplicit false

namespace MediaSplit.Double

/-- Whether doubles near a number are `2 ^ exponent` apart: the number has 53
binary digits from there on, or fewer where the spacing is the least one. -/
structure HasSpacing (exact : ℚ) (exponent : ℤ) : Prop where
  least : -1074 ≤ exponent
  below : exact < 2 ^ (exponent + 53)
  filled : exponent = -1074 ∨ 2 ^ (exponent + 52) ≤ exact

/-- Whether a whole number is the nearest one, an even one if there are two. -/
def IsNearest (exact : ℚ) (whole : ℕ) : Prop :=
  |exact - whole| < 1 / 2 ∨ |exact - whole| = 1 / 2 ∧ whole % 2 = 0

/-- Whether a number is what another one is rounded to. -/
def RoundsTo (exact rounded : ℚ) : Prop :=
  ∃ exponent whole, HasSpacing exact exponent
    ∧ IsNearest (exact / 2 ^ exponent) whole
    ∧ rounded = whole * 2 ^ exponent

theorem two_zpow_pos (exponent : ℤ) : (0 : ℚ) < 2 ^ exponent := zpow_pos (by norm_num) exponent

theorem two_zpow_le {lesser greater : ℤ} (ordered : lesser ≤ greater) :
    (2 : ℚ) ^ lesser ≤ 2 ^ greater :=
  zpow_le_zpow_right₀ (by norm_num) ordered

theorem two_zpow_add (exponent : ℤ) (count : ℕ) :
    (2 : ℚ) ^ (exponent + count) = 2 ^ count * 2 ^ exponent := by
  rw [zpow_add₀ (by norm_num), zpow_natCast, mul_comm]

section Nearest

variable {exact lesser greater : ℚ} {whole wholeLesser wholeGreater : ℕ}

theorem isNearest_natCast (whole : ℕ) : IsNearest whole whole := by
  left
  norm_num

theorem IsNearest.error_le (near : IsNearest exact whole) : |exact - whole| ≤ 1 / 2 := by
  obtain near | ⟨tie, -⟩ := near
  · exact near.le
  · exact tie.le

theorem IsNearest.le
    (isLesser : IsNearest lesser wholeLesser)
    (isGreater : IsNearest greater wholeGreater)
    (ordered : lesser ≤ greater) :
    wholeLesser ≤ wholeGreater := by
  by_contra above
  have apart : (wholeGreater : ℚ) + 1 ≤ wholeLesser := by exact_mod_cast Nat.not_le.1 above
  -- Only a tie leaves room for this, and of two neighbours one is odd.
  have lesserNear := abs_le.1 isLesser.error_le
  have greaterNear := abs_le.1 isGreater.error_le
  have lesserIs : lesser - wholeLesser = -(1 / 2) := by linarith
  have greaterIs : greater - wholeGreater = 1 / 2 := by linarith
  have neighbours : (wholeLesser : ℚ) = wholeGreater + 1 := by linarith
  obtain near | ⟨-, lesserEven⟩ := isLesser
  · rw [lesserIs] at near
    norm_num at near
  · obtain near | ⟨-, greaterEven⟩ := isGreater
    · rw [greaterIs] at near
      norm_num at near
    · have isNext : wholeLesser = wholeGreater + 1 := by exact_mod_cast neighbours
      omega

end Nearest

section Spacing

variable {exact lesser greater : ℚ} {exponent lesserExponent greaterExponent : ℤ}

theorem HasSpacing.le
    (isLesser : HasSpacing lesser lesserExponent)
    (isGreater : HasSpacing greater greaterExponent)
    (ordered : lesser ≤ greater) :
    lesserExponent ≤ greaterExponent := by
  obtain atLeast | filled := isLesser.filled
  · rw [atLeast]
    exact isGreater.least
  · by_contra above
    have wider : (2 : ℚ) ^ (greaterExponent + 53) ≤ 2 ^ (lesserExponent + 52) :=
      two_zpow_le (by omega)
    have below := isGreater.below
    linarith

/-- What is rounded has at most one digit more than there is room for. -/
theorem HasSpacing.whole_le
    (spaced : HasSpacing exact exponent)
    {whole : ℕ}
    (near : IsNearest (exact / 2 ^ exponent) whole) :
    whole ≤ 2 ^ 53 := by
  have below : exact / 2 ^ exponent ≤ ((2 ^ 53 : ℕ) : ℚ) := by
    have room : exact < 2 ^ 53 * 2 ^ exponent := spaced.below.trans_eq (two_zpow_add exponent 53)
    rw [div_le_iff₀ (two_zpow_pos exponent)]
    exact_mod_cast room.le
  exact near.le (isNearest_natCast _) below

theorem HasSpacing.le_whole
    (filled : 2 ^ (exponent + 52) ≤ exact)
    {whole : ℕ}
    (near : IsNearest (exact / 2 ^ exponent) whole) :
    2 ^ 52 ≤ whole := by
  have above : ((2 ^ 52 : ℕ) : ℚ) ≤ exact / 2 ^ exponent := by
    have full : 2 ^ 52 * 2 ^ exponent ≤ exact := (two_zpow_add exponent 52).symm.trans_le filled
    rw [le_div_iff₀ (two_zpow_pos exponent)]
    exact_mod_cast full
  exact (isNearest_natCast _).le near above

end Spacing

section Rounding

variable {exact rounded lesser greater roundedLesser roundedGreater : ℚ}

/-- Rounding keeps the order of numbers. -/
theorem RoundsTo.le
    (isLesser : RoundsTo lesser roundedLesser)
    (isGreater : RoundsTo greater roundedGreater)
    (ordered : lesser ≤ greater) :
    roundedLesser ≤ roundedGreater := by
  obtain ⟨lesserExponent, lesserWhole, lesserSpaced, lesserNear, rfl⟩ := isLesser
  obtain ⟨greaterExponent, greaterWhole, greaterSpaced, greaterNear, rfl⟩ := isGreater
  obtain narrower | same := (lesserSpaced.le greaterSpaced ordered).lt_or_eq
  · -- A power of two lies between the numbers, and rounding does not cross it.
    have atMost : (lesserWhole : ℚ) ≤ 2 ^ 53 := by
      exact_mod_cast lesserSpaced.whole_le lesserNear
    have filled : 2 ^ (greaterExponent + 52) ≤ greater := by
      have least := lesserSpaced.least
      exact greaterSpaced.filled.resolve_left (by omega)
    have atLeast : (2 : ℚ) ^ 52 ≤ greaterWhole := by
      exact_mod_cast HasSpacing.le_whole filled greaterNear
    calc (lesserWhole : ℚ) * 2 ^ lesserExponent
        ≤ 2 ^ 53 * 2 ^ lesserExponent :=
          mul_le_mul_of_nonneg_right atMost (two_zpow_pos _).le
      _ = 2 ^ (lesserExponent + 53) := (two_zpow_add lesserExponent 53).symm
      _ ≤ 2 ^ (greaterExponent + 52) := two_zpow_le (by omega)
      _ = 2 ^ 52 * 2 ^ greaterExponent := two_zpow_add greaterExponent 52
      _ ≤ greaterWhole * 2 ^ greaterExponent :=
          mul_le_mul_of_nonneg_right atLeast (two_zpow_pos _).le
  · subst same
    have scaled : lesser / 2 ^ lesserExponent ≤ greater / 2 ^ lesserExponent :=
      div_le_div_of_nonneg_right ordered (two_zpow_pos _).le
    have wholeLe : (lesserWhole : ℚ) ≤ greaterWhole := by
      exact_mod_cast lesserNear.le greaterNear scaled
    exact mul_le_mul_of_nonneg_right wholeLe (two_zpow_pos _).le

theorem RoundsTo.nonneg (isRounded : RoundsTo exact rounded) : 0 ≤ rounded := by
  obtain ⟨exponent, whole, -, -, rfl⟩ := isRounded
  exact mul_nonneg (Nat.cast_nonneg _) (two_zpow_pos _).le

theorem roundsTo_zero : RoundsTo 0 0 := by
  refine ⟨-1074, 0, ⟨le_rfl, two_zpow_pos _, .inl rfl⟩, ?_, by simp⟩
  rw [zero_div]
  exact_mod_cast isNearest_natCast 0

/-- A power of two is a double. -/
theorem roundsTo_two_zpow {exponent : ℤ} (least : -1022 ≤ exponent) :
    RoundsTo (2 ^ exponent) (2 ^ exponent) := by
  have split : (2 : ℚ) ^ exponent = ((2 ^ 52 : ℕ) : ℚ) * 2 ^ (exponent - 52) := by
    have added := two_zpow_add (exponent - 52) 52
    rw [Nat.cast_ofNat, sub_add_cancel] at added
    rw [added]
    norm_num
  refine ⟨exponent - 52, 2 ^ 52, ⟨by omega, ?_, .inr ?_⟩, ?_, split⟩
  · exact zpow_lt_zpow_right₀ (by norm_num) (by omega)
  · exact two_zpow_le (by omega)
  · rw [split, mul_div_cancel_right₀ _ (two_zpow_pos _).ne']
    exact isNearest_natCast _

/-- Whole numbers of at most 53 binary digits are doubles. -/
theorem RoundsTo.eq_of_natCast
    {whole : ℕ}
    (isRounded : RoundsTo whole rounded)
    (below : whole < 2 ^ 53) :
    rounded = whole := by
  obtain ⟨exponent, nearest, spaced, near, rfl⟩ := isRounded
  obtain positive | ⟨count, isNegative⟩ : 0 < exponent ∨ ∃ count : ℕ, exponent = -count := by
    obtain positive | notPositive := lt_or_ge 0 exponent
    · exact .inl positive
    · exact .inr ⟨(-exponent).toNat, by omega⟩
  · have filled := spaced.filled.resolve_left (by omega)
    have above := calc ((2 ^ 53 : ℕ) : ℚ)
        = 2 ^ (53 : ℤ) := by norm_num
      _ ≤ 2 ^ (exponent + 52) := two_zpow_le (by omega)
      _ ≤ whole := filled
    exact absurd (Nat.cast_le.1 above) (by omega)
  · subst isNegative
    -- The number is a multiple of the spacing.
    have isWhole : (whole : ℚ) / 2 ^ (-(count : ℤ)) = ((whole * 2 ^ count : ℕ) : ℚ) := by
      rw [zpow_neg, zpow_natCast, div_inv_eq_mul]
      push_cast
      rfl
    rw [isWhole] at near
    have same : nearest = whole * 2 ^ count :=
      Nat.le_antisymm (near.le (isNearest_natCast _) le_rfl)
        ((isNearest_natCast _).le near le_rfl)
    rw [same, ← isWhole, div_mul_cancel₀ _ (two_zpow_pos _).ne']

end Rounding

end MediaSplit.Double
