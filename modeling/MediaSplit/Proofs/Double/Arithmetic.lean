import MediaSplit.Proofs.Double.Operations
import MediaSplit.Proofs.Double.Packing
import MediaSplit.Time.Nanoseconds
import Mathlib.Algebra.Order.Monoid.WithTop
import Mathlib.Data.Rat.Floor

/-!
Contract: arithmetic of doubles that are not negative, in terms of numbers.

Owns:
- `Double.Magnitude`, the number that a double is, or infinity;
- `Double.Becomes`, what a number or infinity is as a double, which keeps the
  order;
- one lemma for each operation: its answer is what the exact one becomes;
- `Double.IsPositive`, what can be divided by without a change of order.
-/

set_option autoImplicit false

namespace MediaSplit.Double

open Float.Model Float.Model.UnpackedFloat

/-- Whether a double is a number from zero on, or infinity. -/
def Magnitude (value : Float) (magnitude : WithTop ℚ) : Prop :=
  Holds value.toModel.unpack magnitude

/-- Whether a number or infinity is a given one as a double. -/
def Becomes (exact magnitude : WithTop ℚ) : Prop :=
  (exact = ⊤ ∧ magnitude = ⊤)
    ∨ ∃ number rounded : ℚ, exact = number ∧ RoundsTo number rounded ∧ magnitude = clipped rounded

theorem Becomes.le
    {lesser greater lesserMagnitude greaterMagnitude : WithTop ℚ}
    (isLesser : Becomes lesser lesserMagnitude)
    (isGreater : Becomes greater greaterMagnitude)
    (ordered : lesser ≤ greater) :
    lesserMagnitude ≤ greaterMagnitude := by
  obtain ⟨rfl, rfl⟩ | ⟨greaterNumber, greaterRounded, rfl, greaterRounds, rfl⟩ := isGreater
  · exact le_top
  · obtain ⟨rfl, rfl⟩ | ⟨lesserNumber, lesserRounded, rfl, lesserRounds, rfl⟩ := isLesser
    · exact absurd ordered (not_le.2 (WithTop.coe_lt_top _))
    · exact clipped_mono (lesserRounds.le greaterRounds (WithTop.coe_le_coe.1 ordered))

theorem magnitude_ofModel_pack
    {unpacked : UnpackedFloat}
    {exact : ℚ}
    (rounds : ∃ rounded : ℚ, RoundsTo exact rounded ∧ Holds unpacked rounded) :
    ∃ magnitude, Becomes exact magnitude
      ∧ Magnitude (.ofModel (.pack unpacked)) magnitude := by
  obtain ⟨rounded, isRounded, holds⟩ := rounds
  exact ⟨clipped rounded, .inr ⟨exact, rounded, rfl, isRounded, rfl⟩, holds_unpack_pack holds⟩

/-! ## Doubles -/

section Operations

variable {left right : Float} {leftNumber rightNumber : ℚ}

theorem magnitude_mul
    (isLeft : Magnitude left leftNumber)
    (isRight : Magnitude right rightNumber) :
    ∃ magnitude, Becomes (leftNumber * rightNumber : ℚ) magnitude
      ∧ Magnitude (left * right) magnitude :=
  magnitude_ofModel_pack (holds_mul isLeft isRight)

theorem magnitude_sub
    (isLeft : Magnitude left leftNumber)
    (isRight : Magnitude right rightNumber)
    (ordered : rightNumber ≤ leftNumber) :
    ∃ magnitude, Becomes (leftNumber - rightNumber : ℚ) magnitude
      ∧ Magnitude (left - right) magnitude :=
  magnitude_ofModel_pack (holds_sub isLeft isRight ordered)

theorem magnitude_infinity : Magnitude (.ofModel (.pack (.infinity .positive))) ⊤ := .infinity

theorem magnitude_add
    {leftMagnitude rightMagnitude : WithTop ℚ}
    (isLeft : Magnitude left leftMagnitude)
    (isRight : Magnitude right rightMagnitude) :
    ∃ magnitude, Becomes (leftMagnitude + rightMagnitude) magnitude
      ∧ Magnitude (left + right) magnitude := by
  show ∃ magnitude, _ ∧ Magnitude (.ofModel (.pack
    (UnpackedFloat.add .binary64 left.toModel.unpack right.toModel.unpack))) magnitude
  unfold Magnitude at isLeft isRight
  generalize left.toModel.unpack = leftUnpacked at *
  generalize right.toModel.unpack = rightUnpacked at *
  cases leftMagnitude with
  | top =>
      refine ⟨⊤, .inl ⟨top_add _, rfl⟩, ?_⟩
      cases isLeft
      cases isRight <;> exact magnitude_infinity
  | coe leftNumber =>
      cases rightMagnitude with
      | top =>
          refine ⟨⊤, .inl ⟨add_top _, rfl⟩, ?_⟩
          cases isRight
          cases isLeft <;> exact magnitude_infinity
      | coe rightNumber => exact magnitude_ofModel_pack (holds_add isLeft isRight)

/-- Whether a double is greater than zero, which infinity is. -/
def IsPositive (divisor : Float) : Prop :=
  divisor.toModel.unpack = .infinity .positive
    ∨ ∃ mantissa exponent positive,
      divisor.toModel.unpack = .finite .positive mantissa exponent positive

/-- Division by a positive double is multiplication by some number; this is zero
for infinity. -/
theorem exists_magnitude_div {divisor : Float} (isPositive : IsPositive divisor) :
    ∃ factor : ℚ, 0 ≤ factor ∧ ∀ (left : Float) (leftNumber : ℚ), Magnitude left leftNumber →
      ∃ magnitude, Becomes (leftNumber * factor : ℚ) magnitude
        ∧ Magnitude (left / divisor) magnitude := by
  obtain infinite | ⟨mantissa, exponent, positive, finite⟩ := isPositive
  · refine ⟨0, le_rfl, fun left leftNumber isLeft => magnitude_ofModel_pack ⟨0, ?_, ?_⟩⟩
    · rw [mul_zero]
      exact roundsTo_zero
    · rw [infinite]
      unfold Magnitude at isLeft
      generalize left.toModel.unpack = leftUnpacked at *
      cases isLeft <;> exact .zero
  · refine ⟨(mantissa * 2 ^ exponent : ℚ)⁻¹, ?_, fun left leftNumber isLeft =>
      magnitude_ofModel_pack ?_⟩
    · exact inv_nonneg.2 (mul_nonneg (Nat.cast_nonneg _) (two_zpow_pos _).le)
    · rw [finite]
      exact holds_div isLeft

end Operations

/-! ## Signs -/

theorem sign_mul_swap (left right : Sign) : left * right = right * left := by
  cases left <;> cases right <;> rfl

theorem mul_swap (left right : Float) : left * right = right * left := by
  have unpacked (left right : UnpackedFloat) :
      UnpackedFloat.mul .binary64 left right = UnpackedFloat.mul .binary64 right left := by
    cases left <;> cases right
    case finite.finite leftSign leftMantissa leftExponent _ rightSign rightMantissa
        rightExponent _ =>
      show roundWithAccuracy .binary64 (leftSign * rightSign) (leftMantissa * rightMantissa)
        (leftExponent + rightExponent) .exact = _
      rw [sign_mul_swap, Nat.mul_comm, Int.add_comm]
      rfl
    all_goals first
      | rfl
      | exact congrArg _ (sign_mul_swap _ _)
  exact congrArg (fun product => Float.ofModel (.pack product)) (unpacked _ _)

section Zero

variable {value : Float}

theorem unpack_zero : (0.0 : Float).toModel.unpack = .zero .positive := rfl

theorem zero_lt_iff :
    0.0 < value ↔ UnpackedFloat.lt (.zero .positive) value.toModel.unpack = true := by
  rw [← unpack_zero]
  exact decide_eq_true_iff

theorem le_zero_iff :
    value ≤ 0.0 ↔ UnpackedFloat.le value.toModel.unpack (.zero .positive) = true := by
  rw [← unpack_zero]
  exact decide_eq_true_iff

theorem isPositive_iff : IsPositive value ↔ 0.0 < value := by
  rw [zero_lt_iff]
  unfold IsPositive
  generalize value.toModel.unpack = unpacked
  match unpacked with
  | .notANumber | .zero _ | .infinity .negative | .finite .negative _ _ _ =>
      constructor
      · rintro (same | ⟨_, _, _, same⟩) <;> cases same
      · exact fun above => absurd above Bool.false_ne_true
  | .infinity .positive => exact ⟨fun _ => rfl, fun _ => .inl rfl⟩
  | .finite .positive mantissa exponent positive =>
      exact ⟨fun _ => rfl, fun _ => .inr ⟨mantissa, exponent, positive, rfl⟩⟩

/-- What is not at most zero is positive, unless it is not a number. -/
theorem isPositive_of_not_le (isNumber : value.isNaN = false) (above : ¬ value ≤ 0.0) :
    IsPositive value := by
  have isNumber : value.toModel.unpack.isNaN = false := isNumber
  rw [le_zero_iff] at above
  unfold IsPositive
  generalize value.toModel.unpack = unpacked at *
  match unpacked with
  | .notANumber => cases isNumber
  | .zero _ | .infinity .negative | .finite .negative _ _ _ => exact absurd rfl above
  | .infinity .positive => exact .inl rfl
  | .finite .positive mantissa exponent positive => exact .inr ⟨_, _, _, rfl⟩

end Zero

/-! ## Whole numbers -/

section Whole

variable {number : ℕ}

theorem clipped_of_lt {rounded : ℚ} (fits : rounded < 2 ^ (1024 : ℤ)) :
    clipped rounded = rounded := if_pos fits

theorem natCast_lt (small : number < 2 ^ 53) : (number : ℚ) < 2 ^ (1024 : ℤ) := by
  calc (number : ℚ)
      < ((2 ^ 53 : ℕ) : ℚ) := by exact_mod_cast small
    _ = 2 ^ (53 : ℤ) := by norm_num
    _ ≤ 2 ^ (1024 : ℤ) := two_zpow_le (by decide)

theorem magnitude_of_unpack
    {value : Float}
    {mantissa : ℕ}
    {exponent : ℤ}
    {positive : 0 < mantissa}
    (unpacked : value.toModel.unpack = .finite .positive mantissa exponent positive)
    (canonical : IsCanonical mantissa exponent) :
    Magnitude value (mantissa * 2 ^ exponent : ℚ) := by
  unfold Magnitude
  rw [unpacked]
  exact .finite canonical

theorem magnitude_zero : Magnitude 0.0 (0 : ℚ) := .zero

theorem magnitude_one : Magnitude 1.0 (1 : ℚ) := by
  have unpacked : (1.0 : Float).toModel.unpack = .finite .positive (2 ^ 52) (-52) (by decide) := rfl
  have magnitude := magnitude_of_unpack unpacked ⟨by decide, by decide, .inr (by decide)⟩
  norm_num at magnitude
  exact magnitude

/-- A whole number that fits into the digits of a double is not changed. -/
theorem magnitude_toFloat (small : number < 2 ^ 53) :
    Magnitude number.toUInt64.toFloat (number : ℚ) := by
  obtain ⟨rounded, rounds, holds⟩ := holds_normalize number.toUInt64.toNat 0
  have same : number.toUInt64.toNat = number :=
    UInt64.toNat_ofNat_of_lt (Nat.lt_trans small (by decide))
  rw [zpow_zero, mul_one] at rounds
  rw [same] at rounds
  rw [rounds.eq_of_natCast small] at holds
  have packed := holds_unpack_pack holds
  rw [clipped_of_lt (natCast_lt small)] at packed
  exact packed

theorem ofNat_of_small (small : number < 2 ^ 53) :
    Float.ofNat number = number.toUInt64.toFloat * 1.0 := by
  show Float.ofScientific number false 0 = _
  unfold Float.ofScientific
  rw [dif_pos ⟨small, by decide⟩]
  rfl

theorem ofNat_of_large (large : 2 ^ 53 ≤ number) :
    Float.ofNat number
      = .ofModel (.pack (UnpackedFloat.mul .binary64
          (.finite .positive (number * 2 ^ 53) (-53) (by omega))
          (.finite .positive 1 0 (by decide)))) := by
  have nonzero : number ≠ 0 := by omega
  have scientific : UnpackedFloat.ofScientific .binary64 number 0
      = UnpackedFloat.mul .binary64
          (.finite .positive (number * 2 ^ 53) (-53) (by omega))
          (.finite .positive 1 0 (by decide)) := by
    have shifted : number <<< Format.binary64.mantissaBits = number * 2 ^ 53 :=
      Nat.shiftLeft_eq number 53
    unfold UnpackedFloat.ofScientific
    dsimp only
    rw [dif_neg nonzero, if_neg (by decide), if_neg (by omega), if_pos (by decide)]
    exact congrArg₂ _ (finite_eq rfl shifted rfl) (finite_eq rfl rfl rfl)
  show Float.ofScientific number false 0 = _
  unfold Float.ofScientific
  rw [dif_neg (fun small => absurd small.1 (Nat.not_lt.2 large)), ← scientific]
  rfl

theorem magnitude_ofInt (number : ℕ) :
    ∃ magnitude, Becomes (number : ℚ) magnitude ∧ Magnitude (Float.ofInt number) magnitude := by
  show ∃ magnitude, _ ∧ Magnitude (Float.ofNat number) magnitude
  obtain small | large := Nat.lt_or_ge number (2 ^ 53)
  · rw [ofNat_of_small small, ← mul_one (number : ℚ)]
    exact magnitude_mul (magnitude_toFloat small) magnitude_one
  · rw [ofNat_of_large large]
    apply magnitude_ofModel_pack
    have long : IsLong (number * 2 ^ 53 * 1) (-53 + 0) := by
      left
      omega
    have same : (((number * 2 ^ 53 * 1 : ℕ) : ℚ) * 2 ^ (-53 + 0 : ℤ)) = number := by
      push_cast
      rw [mul_one, mul_assoc, zpow_neg]
      norm_num
    rw [← same]
    exact holds_roundExact long

end Whole

/-! ## Truncation -/

/-- The whole part of a magnitude, at most the greatest signed 64-bit integer. -/
def wholePart : WithTop ℚ → ℤ
  | none => 2 ^ 63 - 1
  | some number => min ⌊number⌋ (2 ^ 63 - 1)

theorem wholePart_mono {lesser greater : WithTop ℚ} (ordered : lesser ≤ greater) :
    wholePart lesser ≤ wholePart greater := by
  cases greater with
  | top =>
      cases lesser with
      | top => exact le_rfl
      | coe number => exact min_le_right _ _
  | coe greaterNumber =>
      cases lesser with
      | top => exact absurd ordered (not_le.2 (WithTop.coe_lt_top _))
      | coe lesserNumber =>
          exact min_le_min_right _ (Int.floor_mono (WithTop.coe_le_coe.1 ordered))

theorem toInt_ofIntClamp {number : ℤ} (nonneg : 0 ≤ number) :
    (Int64.ofIntClamp number).toInt = min number (2 ^ 63 - 1) := by
  have least : Int64.minValue.toInt ≤ number := by
    have isLeast : Int64.minValue.toInt = -2 ^ 63 := rfl
    omega
  have isGreatest : Int64.maxValue.toInt = 2 ^ 63 - 1 := rfl
  by_cases fits : number ≤ Int64.maxValue.toInt
  · rw [Int64.toInt_ofIntClamp least fits]
    omega
  · unfold Int64.ofIntClamp
    rw [dif_pos least, dif_neg fits]
    omega

theorem roundToInt_eq (mantissa : ℕ) (exponent : ℤ) :
    roundToInt .positive mantissa exponent = ⌊(mantissa * 2 ^ exponent : ℚ)⌋ := by
  have whole
      {digits count : ℕ}
      (same : (digits / 2 ^ count : ℚ) = mantissa * 2 ^ exponent) :
      ((ExtendedMantissa.ofMantissaAndAccuracy digits .exact >>> count).mantissa : ℤ)
        = ⌊(mantissa * 2 ^ exponent : ℚ)⌋ := by
    have exactly : StandsFor (.ofMantissaAndAccuracy digits .exact) digits := rfl
    have stands := exactly.shiftRight count
    rw [same] at stands
    symm
    rw [Int.floor_eq_iff]
    exact ⟨stands.mantissa_le, stands.lt_mantissa⟩
  obtain ⟨count, rfl | rfl⟩ : ∃ count : ℕ, exponent = count ∨ exponent = -count :=
    ⟨exponent.natAbs, by omega⟩
  · unfold roundToInt
    rw [decreaseExponent_eq mantissa (zero_add (count : ℤ)).symm]
    apply whole
    show ((mantissa * 2 ^ count : ℕ) : ℚ) / 2 ^ 0 = _
    rw [pow_zero, div_one, zpow_natCast]
    push_cast
    rfl
  · have noDigits : (-(count : ℤ) - 0).toNat = 0 := by omega
    have dropped : (0 - (-(count : ℤ) - (0 : ℕ))).toNat = count := by omega
    unfold roundToInt decreaseExponent shiftToExponent
    dsimp only
    rw [noDigits, dropped, Nat.shiftLeft_zero]
    apply whole
    rw [zpow_neg, zpow_natCast]
    rfl

theorem ofFloat_eq
    {value : Float}
    {magnitude : WithTop ℚ}
    (isMagnitude : Magnitude value magnitude) :
    Time.ofFloat value = wholePart magnitude := by
  show (Int64.ofIntClamp (value.toModel.unpack.toInt Int64.minValue.toInt
    Int64.maxValue.toInt)).toInt = _
  unfold Magnitude at isMagnitude
  generalize value.toModel.unpack = unpacked at *
  cases isMagnitude with
  | infinity => rfl
  | zero => rfl
  | @finite mantissa exponent positive canonical =>
    show (Int64.ofIntClamp (roundToInt .positive mantissa exponent)).toInt = _
    rw [roundToInt_eq, toInt_ofIntClamp]
    · rfl
    · exact Int.floor_nonneg.2 (mul_nonneg (Nat.cast_nonneg _) (two_zpow_pos _).le)

end MediaSplit.Double
