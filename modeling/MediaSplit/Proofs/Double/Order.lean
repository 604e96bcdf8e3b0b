import MediaSplit.Proofs.Double.Arithmetic

/-!
Contract: arithmetic of doubles that are not negative keeps their order.

Owns:
- `Double.AtMost`, the order of doubles by magnitude;
- `Double.Below`, the order of finite ones that a power of two bounds;
- one lemma for each operation that is done to both sides.

Only finite doubles are subtracted from, multiplied and divided, so the bounds
rule out the operations that have no answer; a quotient may be infinite, and it
is only added to and truncated.
-/

set_option autoImplicit false

namespace MediaSplit.Double

theorem Magnitude.unique
    {value : Float}
    {magnitude other : WithTop ℚ}
    (isMagnitude : Magnitude value magnitude)
    (isOther : Magnitude value other) :
    magnitude = other := by
  unfold Magnitude at *
  generalize value.toModel.unpack = unpacked at *
  cases isMagnitude <;> cases isOther <;> rfl

/-- Whether one double is at most another one; neither is negative. -/
def AtMost (lesser greater : Float) : Prop :=
  ∃ lesserMagnitude greaterMagnitude, Magnitude lesser lesserMagnitude
    ∧ Magnitude greater greaterMagnitude
    ∧ lesserMagnitude ≤ greaterMagnitude

/-- Whether one double is at most another one, which is at most a power of two;
neither is negative. -/
def Below (bound : ℕ) (lesser greater : Float) : Prop :=
  ∃ lesserNumber greaterNumber : ℚ, Magnitude lesser lesserNumber
    ∧ Magnitude greater greaterNumber
    ∧ 0 ≤ lesserNumber
    ∧ lesserNumber ≤ greaterNumber
    ∧ greaterNumber ≤ 2 ^ (bound : ℤ)

section AtMost

variable {lesser between greater value : Float}

theorem AtMost.trans
    (before : AtMost lesser between)
    (behind : AtMost between greater) :
    AtMost lesser greater := by
  obtain ⟨lesserMagnitude, upper, isLesser, isUpper, lesserLe⟩ := before
  obtain ⟨lower, greaterMagnitude, isLower, isGreater, lowerLe⟩ := behind
  obtain rfl := isUpper.unique isLower
  exact ⟨lesserMagnitude, greaterMagnitude, isLesser, isGreater, lesserLe.trans lowerLe⟩

theorem AtMost.exists_magnitude (ordered : AtMost lesser greater) :
    ∃ magnitude, Magnitude greater magnitude := by
  obtain ⟨-, magnitude, -, isMagnitude, -⟩ := ordered
  exact ⟨magnitude, isMagnitude⟩

theorem AtMost.ofFloat_le (ordered : AtMost lesser greater) :
    Time.ofFloat lesser ≤ Time.ofFloat greater := by
  obtain ⟨lesserMagnitude, greaterMagnitude, isLesser, isGreater, le⟩ := ordered
  rw [ofFloat_eq isLesser, ofFloat_eq isGreater]
  exact wholePart_mono le

theorem AtMost.add_left
    {magnitude : WithTop ℚ}
    (isMagnitude : Magnitude value magnitude)
    (ordered : AtMost lesser greater) :
    AtMost (value + lesser) (value + greater) := by
  obtain ⟨lesserMagnitude, greaterMagnitude, isLesser, isGreater, le⟩ := ordered
  obtain ⟨lesserSum, lesserBecomes, isLesserSum⟩ := magnitude_add isMagnitude isLesser
  obtain ⟨greaterSum, greaterBecomes, isGreaterSum⟩ := magnitude_add isMagnitude isGreater
  exact ⟨lesserSum, greaterSum, isLesserSum, isGreaterSum,
    lesserBecomes.le greaterBecomes (add_le_add_right le magnitude)⟩

theorem Magnitude.nonneg {magnitude : WithTop ℚ} (isMagnitude : Magnitude value magnitude) :
    0 ≤ magnitude := by
  unfold Magnitude at isMagnitude
  generalize value.toModel.unpack = unpacked at isMagnitude
  cases isMagnitude with
  | infinity => exact le_top
  | zero => exact le_rfl
  | finite => exact WithTop.coe_le_coe.2 (mul_nonneg (Nat.cast_nonneg _) (two_zpow_pos _).le)

theorem Magnitude.becomes {magnitude : WithTop ℚ} (isMagnitude : Magnitude value magnitude) :
    ∃ again, Becomes magnitude again ∧ magnitude ≤ again := by
  cases magnitude with
  | top => exact ⟨⊤, .inl ⟨rfl, rfl⟩, le_rfl⟩
  | coe number =>
      exact ⟨clipped number, .inr ⟨number, number, rfl, Holds.roundsTo isMagnitude, rfl⟩,
        le_clipped number⟩

theorem atMost_add
    {magnitude added : WithTop ℚ}
    (isMagnitude : Magnitude lesser magnitude)
    (isAdded : Magnitude value added) :
    AtMost lesser (lesser + value) := by
  obtain ⟨sum, becomes, isSum⟩ := magnitude_add isMagnitude isAdded
  obtain ⟨again, becomesAgain, le⟩ := isMagnitude.becomes
  exact ⟨magnitude, sum, isMagnitude, isSum,
    le.trans (becomesAgain.le becomes (le_add_of_nonneg_right isAdded.nonneg))⟩

end AtMost

/-! ## Finite doubles -/

/-- What is at most a power of two does not exceed it as a double. -/
theorem Becomes.exists_number
    {number : ℚ}
    {magnitude : WithTop ℚ}
    {bound : ℕ}
    (becomes : Becomes number magnitude)
    (atMost : number ≤ 2 ^ (bound : ℤ))
    (small : bound < 1024) :
    ∃ rounded : ℚ, magnitude = rounded
      ∧ RoundsTo number rounded
      ∧ 0 ≤ rounded
      ∧ rounded ≤ 2 ^ (bound : ℤ) := by
  obtain ⟨infinite, -⟩ | ⟨same, rounded, isSame, rounds, rfl⟩ := becomes
  · exact absurd infinite (WithTop.coe_ne_top)
  · obtain rfl := WithTop.coe_injective isSame
    have bounded : rounded ≤ 2 ^ (bound : ℤ) := rounds.le (roundsTo_two_zpow (by omega)) atMost
    have fits : rounded < 2 ^ (1024 : ℤ) :=
      bounded.trans_lt (zpow_lt_zpow_right₀ (by norm_num) (by omega))
    exact ⟨rounded, clipped_of_lt fits, rounds, rounds.nonneg, bounded⟩

/-- Rounding both of two ordered numbers. -/
theorem below_of_becomes
    {lesser greater : Float}
    {lesserNumber greaterNumber : ℚ}
    {bound : ℕ}
    (isLesser : ∃ magnitude, Becomes lesserNumber magnitude ∧ Magnitude lesser magnitude)
    (isGreater : ∃ magnitude, Becomes greaterNumber magnitude ∧ Magnitude greater magnitude)
    (ordered : lesserNumber ≤ greaterNumber)
    (atMost : greaterNumber ≤ 2 ^ (bound : ℤ))
    (small : bound < 1024) :
    Below bound lesser greater := by
  obtain ⟨_, lesserBecomes, isLesser⟩ := isLesser
  obtain ⟨_, greaterBecomes, isGreater⟩ := isGreater
  obtain ⟨lesserRounded, rfl, lesserRounds, nonneg, -⟩ :=
    lesserBecomes.exists_number (ordered.trans atMost) small
  obtain ⟨greaterRounded, rfl, greaterRounds, -, bounded⟩ :=
    greaterBecomes.exists_number atMost small
  exact ⟨lesserRounded, greaterRounded, isLesser, isGreater, nonneg,
    lesserRounds.le greaterRounds ordered, bounded⟩

theorem below_ofInt {lesser greater bound : ℕ}
    (ordered : lesser ≤ greater)
    (atMost : greater ≤ 2 ^ bound)
    (small : bound < 1024) :
    Below bound (Float.ofInt lesser) (Float.ofInt greater) := by
  apply below_of_becomes (magnitude_ofInt lesser) (magnitude_ofInt greater) _ _ small
  · exact_mod_cast ordered
  · rw [zpow_natCast]
    exact_mod_cast atMost

section Below

variable {lesser greater value divisor : Float} {bound : ℕ}

theorem Below.sub
    (isBelow : Below bound value lesser)
    (ordered : Below bound lesser greater)
    (small : bound < 1024) :
    Below bound (lesser - value) (greater - value) := by
  obtain ⟨number, upper, isNumber, isUpper, nonneg, upperLe, -⟩ := isBelow
  obtain ⟨lesserNumber, greaterNumber, isLesser, isGreater, -, le, atMost⟩ := ordered
  obtain rfl := WithTop.coe_injective (isUpper.unique isLesser)
  apply below_of_becomes (magnitude_sub isLesser isNumber upperLe)
    (magnitude_sub isGreater isNumber (upperLe.trans le)) _ _ small
  · linarith
  · linarith

theorem Below.mul_left
    {number : ℚ}
    {factorBound : ℕ}
    (ordered : Below bound lesser greater)
    (isNumber : Magnitude value number)
    (nonneg : 0 ≤ number)
    (numberLe : number ≤ 2 ^ (factorBound : ℤ))
    (small : bound + factorBound < 1024) :
    Below (bound + factorBound) (value * lesser) (value * greater) := by
  obtain ⟨lesserNumber, greaterNumber, isLesser, isGreater, lesserNonneg, le, atMost⟩ := ordered
  apply below_of_becomes (magnitude_mul isNumber isLesser) (magnitude_mul isNumber isGreater) _ _
    small
  · exact mul_le_mul_of_nonneg_left le nonneg
  · rw [Nat.cast_add, zpow_add₀ (by norm_num), mul_comm]
    exact mul_le_mul atMost numberLe nonneg (two_zpow_pos _).le

/-- Something is added to the greater side only. -/
theorem Below.add_right
    {number : ℚ}
    (ordered : Below bound lesser greater)
    (isNumber : Magnitude value number)
    (nonneg : 0 ≤ number)
    (numberLe : number ≤ 2 ^ (bound : ℤ))
    (small : bound + 1 < 1024) :
    Below (bound + 1) lesser (greater + value) := by
  obtain ⟨lesserNumber, greaterNumber, isLesser, isGreater, lesserNonneg, le, atMost⟩ := ordered
  have isSelf : ∃ magnitude, Becomes lesserNumber magnitude ∧ Magnitude lesser magnitude := by
    have fits : lesserNumber < 2 ^ (1024 : ℤ) :=
      (le.trans atMost).trans_lt (zpow_lt_zpow_right₀ (by norm_num) (by omega))
    exact ⟨lesserNumber, .inr ⟨lesserNumber, lesserNumber, rfl, Holds.roundsTo isLesser,
      (clipped_of_lt fits).symm⟩, isLesser⟩
  have isSum : ∃ magnitude, Becomes (greaterNumber + number : ℚ) magnitude
      ∧ Magnitude (greater + value) magnitude := magnitude_add isGreater isNumber
  apply below_of_becomes isSelf isSum _ _ small
  · linarith
  · rw [Nat.cast_succ, zpow_add_one₀ (by norm_num)]
    linarith

theorem Below.div
    (ordered : Below bound lesser greater)
    (isPositive : IsPositive divisor) :
    AtMost (lesser / divisor) (greater / divisor) := by
  obtain ⟨factor, nonneg, quotient⟩ := exists_magnitude_div isPositive
  obtain ⟨lesserNumber, greaterNumber, isLesser, isGreater, -, le, -⟩ := ordered
  obtain ⟨lesserQuotient, lesserBecomes, isLesserQuotient⟩ := quotient lesser lesserNumber isLesser
  obtain ⟨greaterQuotient, greaterBecomes, isGreaterQuotient⟩ :=
    quotient greater greaterNumber isGreater
  refine ⟨lesserQuotient, greaterQuotient, isLesserQuotient, isGreaterQuotient, ?_⟩
  exact lesserBecomes.le greaterBecomes
    (WithTop.coe_le_coe.2 (mul_le_mul_of_nonneg_right le nonneg))

end Below

end MediaSplit.Double
