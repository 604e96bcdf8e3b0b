import MediaSplit.Proofs.Double.Rounding

/-!
Contract: arithmetic of unpacked doubles that are not negative.

Owns: one lemma for each operation, which says that its answer is the nearest
double to the exact one: `holds_mul`, `holds_add`, `holds_sub`, `holds_div`.

A quotient is computed to so many digits that its remainder decides how it is
rounded.
-/

set_option autoImplicit false

namespace MediaSplit.Double

open Float.Model Float.Model.UnpackedFloat

section Unpacked

variable {left right : UnpackedFloat} {leftNumber rightNumber : ℚ}

theorem roundsTo_of_isCanonical
    {mantissa : ℕ}
    {exponent : ℤ}
    (canonical : IsCanonical mantissa exponent) :
    RoundsTo (mantissa * 2 ^ exponent) (mantissa * 2 ^ exponent) := by
  have less : (mantissa : ℚ) < 2 ^ 53 := by exact_mod_cast canonical.below
  refine ⟨exponent, mantissa, ⟨canonical.least, ?_, canonical.filled.imp_right fun full => ?_⟩,
    ?_, rfl⟩
  · exact (mul_lt_mul_of_pos_right less (two_zpow_pos _)).trans_eq (two_zpow_add exponent 53).symm
  · have atLeast : (2 ^ 52 : ℚ) ≤ mantissa := by exact_mod_cast full
    exact (two_zpow_add exponent 52).trans_le
      (mul_le_mul_of_nonneg_right atLeast (two_zpow_pos _).le)
  · rw [mul_div_cancel_right₀ _ (two_zpow_pos _).ne']
    exact isNearest_natCast mantissa

/-- A double rounds to itself. -/
theorem Holds.roundsTo (holds : Holds left leftNumber) : RoundsTo leftNumber leftNumber := by
  cases holds with
  | zero => exact roundsTo_zero
  | finite canonical => exact roundsTo_of_isCanonical canonical

theorem isLong_mul
    {leftMantissa rightMantissa : ℕ}
    {leftExponent rightExponent : ℤ}
    (isLeft : IsCanonical leftMantissa leftExponent)
    (isRight : IsCanonical rightMantissa rightExponent)
    (leftPositive : 0 < leftMantissa)
    (rightPositive : 0 < rightMantissa) :
    IsLong (leftMantissa * rightMantissa) (leftExponent + rightExponent) := by
  obtain leftLeast | leftFull := isLeft.filled
  · obtain rightLeast | rightFull := isRight.filled
    · right
      omega
    · left
      exact rightFull.trans (Nat.le_mul_of_pos_left _ leftPositive)
  · left
    exact leftFull.trans (Nat.le_mul_of_pos_right _ rightPositive)

theorem holds_mul
    (isLeft : Holds left leftNumber)
    (isRight : Holds right rightNumber) :
    ∃ rounded : ℚ, RoundsTo (leftNumber * rightNumber) rounded
      ∧ Holds (UnpackedFloat.mul .binary64 left right) rounded := by
  cases isLeft with
  | zero =>
      refine ⟨0, ?_, ?_⟩
      · rw [zero_mul]
        exact roundsTo_zero
      · cases isRight <;> exact .zero
  | @finite leftMantissa leftExponent leftPositive leftCanonical =>
      cases isRight with
      | zero =>
          refine ⟨0, ?_, .zero⟩
          rw [mul_zero]
          exact roundsTo_zero
      | @finite rightMantissa rightExponent rightPositive rightCanonical =>
          have product : (leftMantissa * 2 ^ leftExponent * (rightMantissa * 2 ^ rightExponent) : ℚ)
              = ((leftMantissa * rightMantissa : ℕ) : ℚ) * 2 ^ (leftExponent + rightExponent) := by
            rw [zpow_add₀ (by norm_num)]
            push_cast
            ring
          rw [product]
          exact holds_roundExact (isLong_mul leftCanonical rightCanonical leftPositive rightPositive)

/-- The mantissa of a double over a smaller spacing. -/
theorem decreaseExponent_eq
    {exponent target : ℤ}
    (mantissa : ℕ)
    {count : ℕ}
    (reaches : exponent = target + count) :
    decreaseExponent mantissa exponent target = (mantissa * 2 ^ count, target) := by
  have amount : (exponent - target).toNat = count := by omega
  unfold decreaseExponent
  dsimp only
  rw [amount, Nat.shiftLeft_eq, reaches, add_sub_cancel_right]

/-- A double over a smaller spacing. -/
theorem exists_digits
    (mantissa : ℕ)
    {exponent target : ℤ}
    (atMost : target ≤ exponent) :
    ∃ digits : ℕ, (decreaseExponent mantissa exponent target).1 = digits
      ∧ (mantissa * 2 ^ exponent : ℚ) = digits * 2 ^ target := by
  obtain ⟨count, reaches⟩ := Int.le.dest atMost
  refine ⟨mantissa * 2 ^ count, ?_, ?_⟩
  · rw [decreaseExponent_eq mantissa reaches.symm]
  · have spelled := spelled_eq mantissa exponent count
    rw [sub_eq_of_eq_add reaches.symm] at spelled
    exact spelled.symm

theorem holds_add
    (isLeft : Holds left leftNumber)
    (isRight : Holds right rightNumber) :
    ∃ rounded : ℚ, RoundsTo (leftNumber + rightNumber) rounded
      ∧ Holds (UnpackedFloat.add .binary64 left right) rounded := by
  cases isLeft with
  | zero =>
      refine ⟨rightNumber, ?_, ?_⟩
      · rw [zero_add]
        exact isRight.roundsTo
      · cases isRight with
        | zero => exact .zero
        | finite canonical => exact .finite canonical
  | @finite leftMantissa leftExponent leftPositive leftCanonical =>
      cases isRight with
      | zero =>
          refine ⟨_, ?_, .finite leftCanonical⟩
          rw [add_zero]
          exact roundsTo_of_isCanonical leftCanonical
      | @finite rightMantissa rightExponent rightPositive rightCanonical =>
          obtain ⟨leftDigits, leftSpelled, leftIs⟩ :=
            exists_digits leftMantissa (min_le_left leftExponent rightExponent)
          obtain ⟨rightDigits, rightSpelled, rightIs⟩ :=
            exists_digits rightMantissa (min_le_right leftExponent rightExponent)
          obtain ⟨rounded, rounds, holds⟩ :=
            holds_normalize (leftDigits + rightDigits) (min leftExponent rightExponent)
          refine ⟨rounded, ?_, ?_⟩
          · rw [leftIs, rightIs, ← add_mul, ← Nat.cast_add]
            exact rounds
          · rw [← leftSpelled, ← rightSpelled] at holds
            exact holds

/-- A difference that is not negative. -/
theorem holds_sub
    (isLeft : Holds left leftNumber)
    (isRight : Holds right rightNumber)
    (ordered : rightNumber ≤ leftNumber) :
    ∃ rounded : ℚ, RoundsTo (leftNumber - rightNumber) rounded
      ∧ Holds (UnpackedFloat.sub .binary64 left right) rounded := by
  cases isRight with
  | zero =>
      refine ⟨leftNumber, ?_, ?_⟩
      · rw [sub_zero]
        exact isLeft.roundsTo
      · cases isLeft with
        | zero => exact .zero
        | finite canonical => exact .finite canonical
  | @finite rightMantissa rightExponent rightPositive rightCanonical =>
      have above : (0 : ℚ) < rightMantissa * 2 ^ rightExponent :=
        mul_pos (Nat.cast_pos.2 rightPositive) (two_zpow_pos _)
      cases isLeft with
      | zero => exact absurd ordered (not_le.2 above)
      | @finite leftMantissa leftExponent leftPositive leftCanonical =>
          obtain ⟨leftDigits, leftSpelled, leftIs⟩ :=
            exists_digits leftMantissa (min_le_left leftExponent rightExponent)
          obtain ⟨rightDigits, rightSpelled, rightIs⟩ :=
            exists_digits rightMantissa (min_le_right leftExponent rightExponent)
          have digitsOrdered : rightDigits ≤ leftDigits := by
            rw [leftIs, rightIs] at ordered
            exact Nat.cast_le.1 (le_of_mul_le_mul_right ordered (two_zpow_pos _))
          obtain ⟨rounded, rounds, holds⟩ :=
            holds_normalize (leftDigits - rightDigits) (min leftExponent rightExponent)
          refine ⟨rounded, ?_, ?_⟩
          · rw [leftIs, rightIs, ← sub_mul, ← Nat.cast_sub digitsOrdered]
            exact rounds
          · rw [Nat.cast_sub digitsOrdered, ← leftSpelled, ← rightSpelled] at holds
            exact holds

/-! ## Quotients -/

/-- The remainder of a division tells on which side of one half the rest lies. -/
theorem standsFor_quotient (dividend : ℕ) {divisor : ℕ} (positive : 0 < divisor) :
    StandsFor
      (.ofMantissaAndAccuracy (dividend / divisor)
        (accuracyOfFraction (dividend % divisor) divisor))
      (dividend / divisor) := by
  have divisorPositive : (0 : ℚ) < divisor := Nat.cast_pos.2 positive
  have split : (dividend / divisor : ℚ)
      = (dividend / divisor : ℕ) + (dividend % divisor : ℕ) / divisor := by
    have whole : (dividend : ℚ) = (divisor * (dividend / divisor) + dividend % divisor : ℕ) := by
      rw [Nat.div_add_mod]
    rw [whole]
    push_cast
    field_simp
  have remainderLess : ((dividend % divisor : ℕ) : ℚ) / divisor < 1 := by
    rw [div_lt_one divisorPositive]
    exact_mod_cast Nat.mod_lt dividend positive
  rw [split]
  generalize dividend / divisor = quotient, dividend % divisor = remainder at *
  unfold accuracyOfFraction
  split
  next isZero =>
    rw [isZero, Nat.cast_zero, zero_div, add_zero]
    rfl
  next nonzero =>
    have above : (0 : ℚ) < remainder / divisor :=
      div_pos (Nat.cast_pos.2 (Nat.pos_of_ne_zero nonzero)) divisorPositive
    cases side : compare (2 * remainder) divisor with
    | lt =>
        have isLess : ((2 * remainder : ℕ) : ℚ) < divisor := by
          exact_mod_cast compare_lt_iff_lt.1 side
        have below : (remainder : ℚ) / divisor < 1 / 2 := by
          rw [div_lt_iff₀ divisorPositive]
          push_cast at isLess
          linarith
        exact ⟨by linarith, by linarith⟩
    | eq =>
        have isEqual : ((2 * remainder : ℕ) : ℚ) = divisor := by
          exact_mod_cast compare_eq_iff_eq.1 side
        have half : (remainder : ℚ) / divisor = 1 / 2 := by
          rw [div_eq_iff divisorPositive.ne']
          push_cast at isEqual
          linarith
        rw [half]
        rfl
    | gt =>
        have isGreater : (divisor : ℚ) < ((2 * remainder : ℕ) : ℚ) := by
          exact_mod_cast compare_gt_iff_gt.1 side
        have beyond : 1 / 2 < (remainder : ℚ) / divisor := by
          rw [lt_div_iff₀ divisorPositive]
          push_cast at isGreater
          linarith
        exact ⟨by linarith, by linarith⟩

section Quotient

variable (dividend : ℕ) (dividendExponent : ℤ) (divisor : ℕ) (divisorExponent : ℤ)

/-- The spacing that a quotient is computed to. -/
def quotientExponent : ℤ :=
  min (dividendExponent - divisorExponent)
    (max (dividend.log2 + dividendExponent - (divisor.log2 + divisorExponent) - 53) (-1074))

/-- How many digits are appended to a dividend. -/
def appendedDigits : ℕ :=
  (dividendExponent - divisorExponent
    - quotientExponent dividend dividendExponent divisor divisorExponent).toNat

theorem divCore_eq :
    divCore .binary64 dividend dividendExponent divisor divisorExponent
      = (dividend * 2 ^ appendedDigits dividend dividendExponent divisor divisorExponent / divisor,
          quotientExponent dividend dividendExponent divisor divisorExponent,
          accuracyOfFraction
            (dividend * 2 ^ appendedDigits dividend dividendExponent divisor divisorExponent
              % divisor) divisor) := by
  have target : min (dividendExponent - divisorExponent)
      (Format.binary64.targetExponent
        (totalExponent dividend dividendExponent - totalExponent divisor divisorExponent))
      = quotientExponent dividend dividendExponent divisor divisorExponent := by
    unfold quotientExponent Format.targetExponent totalExponent
    show min _ (max (_ - 53) (-1074)) = _
    omega
  unfold divCore
  dsimp only
  rw [target, Nat.shiftLeft_eq]
  rfl

theorem isLong_quotient {dividend divisor : ℕ}
    (dividendPositive : 0 < dividend)
    (divisorPositive : 0 < divisor) :
    IsLong
      (dividend * 2 ^ appendedDigits dividend dividendExponent divisor divisorExponent / divisor)
      (quotientExponent dividend dividendExponent divisor divisorExponent) := by
  by_cases least : quotientExponent dividend dividendExponent divisor divisorExponent ≤ -1074
  · exact .inr least
  · left
    have digits : divisor.log2 + 1 + 52
        ≤ dividend.log2 + appendedDigits dividend dividendExponent divisor divisorExponent := by
      unfold appendedDigits
      unfold quotientExponent at least ⊢
      omega
    rw [Nat.le_div_iff_mul_le divisorPositive]
    calc 2 ^ 52 * divisor
        ≤ 2 ^ 52 * 2 ^ (divisor.log2 + 1) := Nat.mul_le_mul_left _ Nat.lt_log2_self.le
      _ = 2 ^ (divisor.log2 + 1 + 52) := by rw [← Nat.pow_add, Nat.add_comm]
      _ ≤ 2 ^ (dividend.log2 + appendedDigits dividend dividendExponent divisor divisorExponent) :=
          Nat.pow_le_pow_right (by decide) digits
      _ = 2 ^ dividend.log2 * 2 ^ appendedDigits dividend dividendExponent divisor divisorExponent :=
          Nat.pow_add ..
      _ ≤ _ := Nat.mul_le_mul_right _ (Nat.log2_self_le dividendPositive.ne')

/-- A quotient of doubles over the spacing that it is computed to. -/
theorem quotient_eq {divisor : ℕ} (positive : 0 < divisor) :
    (dividend * 2 ^ dividendExponent * (divisor * 2 ^ divisorExponent : ℚ)⁻¹
        / 2 ^ quotientExponent dividend dividendExponent divisor divisorExponent : ℚ)
      = ((dividend * 2 ^ appendedDigits dividend dividendExponent divisor divisorExponent : ℕ) : ℚ)
        / divisor := by
  have reaches : dividendExponent
      = quotientExponent dividend dividendExponent divisor divisorExponent + divisorExponent
        + appendedDigits dividend dividendExponent divisor divisorExponent := by
    unfold appendedDigits quotientExponent
    omega
  have split := two_zpow_add
    (quotientExponent dividend dividendExponent divisor divisorExponent + divisorExponent)
    (appendedDigits dividend dividendExponent divisor divisorExponent)
  rw [← reaches, zpow_add₀ (by norm_num)] at split
  have nonzero : (divisor : ℚ) ≠ 0 := Nat.cast_ne_zero.2 positive.ne'
  have spacingNonzero :=
    (two_zpow_pos (quotientExponent dividend dividendExponent divisor divisorExponent)).ne'
  have divisorNonzero := (two_zpow_pos divisorExponent).ne'
  rw [split]
  push_cast
  field_simp

end Quotient

theorem holds_div
    {divisor : ℕ}
    {divisorExponent : ℤ}
    {divisorPositive : 0 < divisor}
    (isLeft : Holds left leftNumber) :
    ∃ rounded : ℚ, RoundsTo (leftNumber * (divisor * 2 ^ divisorExponent : ℚ)⁻¹) rounded
      ∧ Holds (UnpackedFloat.div .binary64 left
        (.finite .positive divisor divisorExponent divisorPositive)) rounded := by
  cases isLeft with
  | zero =>
      refine ⟨0, ?_, .zero⟩
      rw [zero_mul]
      exact roundsTo_zero
  | @finite dividend dividendExponent dividendPositive canonical =>
      have stands := standsFor_quotient
        (dividend * 2 ^ appendedDigits dividend dividendExponent divisor divisorExponent)
        divisorPositive
      rw [← quotient_eq dividend dividendExponent divisorExponent divisorPositive] at stands
      obtain ⟨rounded, rounds, holds⟩ := holds_roundWithAccuracy stands
        (isLong_quotient dividendExponent divisorExponent dividendPositive divisorPositive)
      refine ⟨rounded, rounds, ?_⟩
      show Holds (roundWithAccuracy .binary64 .positive
        (divCore .binary64 dividend dividendExponent divisor divisorExponent).1
        (divCore .binary64 dividend dividendExponent divisor divisorExponent).2.1
        (divCore .binary64 dividend dividendExponent divisor divisorExponent).2.2) _
      rw [divCore_eq]
      exact holds

end Unpacked

end MediaSplit.Double
