import MediaSplit.Proofs.Double.Nearest
import Mathlib.Data.Nat.Log
import Mathlib.Tactic.FieldSimp
import Mathlib.Tactic.Ring

/-!
Contract: the rounding of doubles that are not negative, in terms of numbers.

Owns:
- `Double.Holds`, the number that an unpacked double is, or infinity;
- `Double.StandsFor`, the number of which a mantissa and its residual bits tell;
- `holds_roundWithAccuracy` and `holds_normalize`: what these end in is the
  nearest double.

A mantissa is shifted to the right until it fits, which moves its last digits
into the residual bits. Rounding up may carry into one digit too many, and the
shift that follows drops a zero.
-/

set_option autoImplicit false

namespace MediaSplit.Double

open Float.Model Float.Model.UnpackedFloat

/-- Whether a double is spelled with as many digits as there is room for. -/
structure IsCanonical (mantissa : ℕ) (exponent : ℤ) : Prop where
  below : mantissa < 2 ^ 53
  least : -1074 ≤ exponent
  filled : exponent = -1074 ∨ 2 ^ 52 ≤ mantissa

/-- Whether an unpacked double is a number from zero on, or infinity. -/
inductive Holds : UnpackedFloat → WithTop ℚ → Prop where
  | infinity : Holds (.infinity .positive) ⊤
  | zero : Holds (.zero .positive) (0 : ℚ)
  | finite {mantissa : ℕ} {exponent : ℤ} {positive : 0 < mantissa}
      (canonical : IsCanonical mantissa exponent) :
      Holds (.finite .positive mantissa exponent positive) (mantissa * 2 ^ exponent : ℚ)

/-! ## Residual bits -/

/-- Whether a mantissa and its residual bits tell of a number: the mantissa is
its whole part, and the bits tell on which side of one half the rest lies. -/
def StandsFor (extended : ExtendedMantissa) (exact : ℚ) : Prop :=
  match extended with
  | ⟨mantissa, false, false⟩ => exact = mantissa
  | ⟨mantissa, false, true⟩ => mantissa < exact ∧ exact < mantissa + 1 / 2
  | ⟨mantissa, true, false⟩ => exact = mantissa + 1 / 2
  | ⟨mantissa, true, true⟩ => mantissa + 1 / 2 < exact ∧ exact < mantissa + 1

section Residue

variable {extended : ExtendedMantissa} {exact : ℚ}

theorem StandsFor.mantissa_le (stands : StandsFor extended exact) :
    extended.mantissa ≤ exact := by
  obtain ⟨mantissa, roundBit, stickyBit⟩ := extended
  cases roundBit <;> cases stickyBit <;> simp only [StandsFor] at stands ⊢ <;> linarith

theorem StandsFor.lt_mantissa (stands : StandsFor extended exact) :
    exact < extended.mantissa + 1 := by
  obtain ⟨mantissa, roundBit, stickyBit⟩ := extended
  cases roundBit <;> cases stickyBit <;> simp only [StandsFor] at stands ⊢ <;> linarith

theorem StandsFor.shiftRightOne (stands : StandsFor extended exact) :
    StandsFor extended.shiftRightOne (exact / 2) := by
  obtain ⟨mantissa, roundBit, stickyBit⟩ := extended
  obtain ⟨half, rfl | rfl⟩ : ∃ half, mantissa = 2 * half ∨ mantissa = 2 * half + 1 :=
    ⟨mantissa / 2, by omega⟩
  · have shifted : ExtendedMantissa.shiftRightOne ⟨2 * half, roundBit, stickyBit⟩
        = ⟨half, false, roundBit || stickyBit⟩ := by
      simp [ExtendedMantissa.shiftRightOne]
    rw [shifted]
    cases roundBit <;> cases stickyBit <;> simp only [StandsFor, Bool.or_true, Bool.or_false] at *
      <;> push_cast at * <;> first | linarith | constructor <;> linarith
  · have shifted : ExtendedMantissa.shiftRightOne ⟨2 * half + 1, roundBit, stickyBit⟩
        = ⟨half, true, roundBit || stickyBit⟩ := by
      simp [ExtendedMantissa.shiftRightOne]
      omega
    rw [shifted]
    cases roundBit <;> cases stickyBit <;> simp only [StandsFor, Bool.or_true, Bool.or_false] at *
      <;> push_cast at * <;> first | linarith | constructor <;> linarith

theorem StandsFor.shiftRight (stands : StandsFor extended exact) (count : ℕ) :
    StandsFor (extended >>> count) (exact / 2 ^ count) := by
  show StandsFor (count.repeat ExtendedMantissa.shiftRightOne extended) _
  induction count with
  | zero =>
      rw [pow_zero, div_one]
      exact stands
  | succ count inductionHypothesis =>
      rw [pow_succ, ← div_div]
      exact inductionHypothesis.shiftRightOne

theorem StandsFor.isNearest (stands : StandsFor extended exact) :
    IsNearest exact extended.roundedMantissa := by
  obtain ⟨mantissa, roundBit, stickyBit⟩ := extended
  match roundBit, stickyBit with
  | false, false =>
      obtain rfl : exact = mantissa := stands
      exact isNearest_natCast mantissa
  | false, true =>
      obtain ⟨above, below⟩ := stands
      left
      show |exact - mantissa| < 1 / 2
      rw [abs_lt]
      constructor <;> linarith
  | true, false =>
      obtain rfl : exact = mantissa + 1 / 2 := stands
      right
      show |(mantissa : ℚ) + 1 / 2 - (mantissa + mantissa % 2 : ℕ)| = 1 / 2
        ∧ (mantissa + mantissa % 2) % 2 = 0
      obtain even | odd := Nat.mod_two_eq_zero_or_one mantissa
      · rw [even]
        norm_num
        exact even
      · rw [odd]
        norm_num
        omega
  | true, true =>
      obtain ⟨above, below⟩ := stands
      left
      show |exact - (mantissa + 1 : ℕ)| < 1 / 2
      rw [abs_lt]
      push_cast
      constructor <;> linarith

end Residue

/-! ## Shifting to the spacing -/

section Shifting

variable {mantissa : ℕ} {exponent : ℤ} {exact : ℚ}

/-- The spacing of doubles near a number of which the leading digits are known. -/
def spacing (mantissa : ℕ) (exponent : ℤ) : ℤ := max (mantissa.log2 + exponent - 52) (-1074)

theorem targetExponent_eq (mantissa : ℕ) (exponent : ℤ) :
    Format.binary64.targetExponent (totalExponent mantissa exponent)
      = spacing mantissa exponent := by
  unfold Format.targetExponent totalExponent spacing
  show max ((mantissa.log2 : ℤ) + 1 + exponent - 53) (-1074) = _
  congr 1
  omega

/-- The digits that are known are enough. -/
def IsLong (mantissa : ℕ) (exponent : ℤ) : Prop := 2 ^ 52 ≤ mantissa ∨ exponent ≤ -1074

theorem IsLong.le_spacing (long : IsLong mantissa exponent) :
    exponent ≤ spacing mantissa exponent := by
  unfold spacing
  obtain long | least := long
  · have digits := (Nat.le_log2 (by omega)).2 long
    omega
  · omega

theorem hasSpacing_spacing
    (long : IsLong mantissa exponent)
    (above : mantissa * 2 ^ exponent ≤ exact)
    (below : exact < (mantissa + 1) * 2 ^ exponent) :
    HasSpacing exact (spacing mantissa exponent) := by
  constructor
  case least => exact le_max_right _ _
  case below =>
    have digits : (mantissa : ℚ) + 1 ≤ ((2 ^ (mantissa.log2 + 1) : ℕ) : ℚ) := by
      exact_mod_cast Nat.lt_log2_self
    calc exact
        < (mantissa + 1) * 2 ^ exponent := below
      _ ≤ ((2 ^ (mantissa.log2 + 1) : ℕ) : ℚ) * 2 ^ exponent :=
          mul_le_mul_of_nonneg_right digits (two_zpow_pos _).le
      _ = 2 ^ (exponent + (mantissa.log2 + 1 : ℕ)) := by
          rw [two_zpow_add]
          push_cast
          rfl
      _ ≤ 2 ^ (spacing mantissa exponent + 53) := two_zpow_le (by unfold spacing; omega)
  case filled =>
    obtain least | digits : spacing mantissa exponent = -1074
        ∨ spacing mantissa exponent = mantissa.log2 + exponent - 52 := by
      unfold spacing
      omega
    · exact .inl least
    · obtain rfl | nonzero := Nat.eq_zero_or_pos mantissa
      · left
        obtain long | least := long
        · omega
        · rw [Nat.log2_zero] at digits
          unfold spacing at digits ⊢
          omega
      · right
        have atLeast : ((2 ^ mantissa.log2 : ℕ) : ℚ) ≤ mantissa := by
          exact_mod_cast Nat.log2_self_le nonzero.ne'
        calc (2 : ℚ) ^ (spacing mantissa exponent + 52)
            = 2 ^ (exponent + mantissa.log2) := by
              rw [digits]
              congr 1
              omega
          _ = ((2 ^ mantissa.log2 : ℕ) : ℚ) * 2 ^ exponent := by
              rw [two_zpow_add]
              push_cast
              rfl
          _ ≤ mantissa * 2 ^ exponent := mul_le_mul_of_nonneg_right atLeast (two_zpow_pos _).le
          _ ≤ exact := above

theorem shiftToTargetExponent_eq
    {count : ℕ}
    (reaches : spacing mantissa exponent = exponent + count)
    (accuracy : Accuracy) :
    shiftToTargetExponent .binary64 mantissa exponent accuracy
      = (ExtendedMantissa.ofMantissaAndAccuracy mantissa accuracy >>> count, exponent + count) := by
  have amount : (spacing mantissa exponent - exponent).toNat = count := by omega
  unfold shiftToTargetExponent shiftToExponent
  rw [targetExponent_eq]
  dsimp only
  rw [amount]

/-- A mantissa that fits stays as it is, and one with a digit too many loses it. -/
theorem holds_of_rounded
    {whole : ℕ}
    (atMost : whole ≤ 2 ^ 53)
    (least : -1074 ≤ exponent)
    (filled : exponent = -1074 ∨ 2 ^ 52 ≤ whole) :
    Holds
      (let shifted := shiftToTargetExponent .binary64 whole exponent .exact
      if isZero : shifted.1.mantissa = 0 then .zero .positive
        else .finite .positive shifted.1.mantissa shifted.2 (Nat.pos_of_ne_zero isZero))
      (whole * 2 ^ exponent : ℚ) := by
  obtain fits | rfl := Nat.lt_or_eq_of_le atMost
  · have stays : spacing whole exponent = exponent + (0 : ℕ) := by
      have digits : whole.log2 < 53 := by
        obtain rfl | nonzero := Nat.eq_zero_or_pos whole
        · decide
        · exact (Nat.log2_lt nonzero.ne').2 fits
      unfold spacing
      obtain rfl | full := filled
      · omega
      · have reached := (Nat.le_log2 (by omega)).2 full
        omega
    rw [shiftToTargetExponent_eq stays, Nat.cast_zero, add_zero]
    show Holds (if isZero : whole = 0 then .zero .positive
      else .finite .positive whole exponent (Nat.pos_of_ne_zero isZero)) _
    by_cases isZero : whole = 0
    · rw [dif_pos isZero, isZero, Nat.cast_zero, zero_mul]
      exact .zero
    · rw [dif_neg isZero]
      exact .finite ⟨fits, least, filled⟩
  · have carries : spacing (2 ^ 53) exponent = exponent + (1 : ℕ) := by
      unfold spacing
      rw [Nat.log2_two_pow]
      omega
    rw [shiftToTargetExponent_eq carries]
    have value : (((2 ^ 53 : ℕ) : ℚ) * 2 ^ exponent)
        = ((2 ^ 52 : ℕ) : ℚ) * 2 ^ (exponent + (1 : ℕ)) := by
      rw [two_zpow_add, ← mul_assoc]
      norm_num
    rw [value]
    exact .finite ⟨show 2 ^ 52 < 2 ^ 53 by decide, by omega, .inr le_rfl⟩

end Shifting

/-- Rounding with known accuracy gives the nearest double. -/
theorem holds_roundWithAccuracy
    {mantissa : ℕ}
    {exponent : ℤ}
    {accuracy : Accuracy}
    {exact : ℚ}
    (stands : StandsFor (.ofMantissaAndAccuracy mantissa accuracy) (exact / 2 ^ exponent))
    (long : IsLong mantissa exponent) :
    ∃ rounded : ℚ, RoundsTo exact rounded
      ∧ Holds (roundWithAccuracy .binary64 .positive mantissa exponent accuracy) rounded := by
  obtain ⟨count, reaches⟩ := Int.le.dest long.le_spacing
  have sameMantissa : (ExtendedMantissa.ofMantissaAndAccuracy mantissa accuracy).mantissa
      = mantissa := by
    cases accuracy with
    | exact => rfl
    | inexact side => cases side <;> rfl
  have spaced : HasSpacing exact (exponent + count) := by
    have above := stands.mantissa_le
    have below := stands.lt_mantissa
    rw [sameMantissa] at above below
    rw [reaches]
    exact hasSpacing_spacing long ((le_div_iff₀ (two_zpow_pos _)).1 above)
      ((div_lt_iff₀ (two_zpow_pos _)).1 below)
  have near : IsNearest (exact / 2 ^ (exponent + count))
      (ExtendedMantissa.ofMantissaAndAccuracy mantissa accuracy >>> count).roundedMantissa := by
    rw [two_zpow_add, mul_comm, ← div_div]
    exact (stands.shiftRight count).isNearest
  refine ⟨_, ⟨_, _, spaced, near, rfl⟩, ?_⟩
  unfold roundWithAccuracy
  rw [shiftToTargetExponent_eq reaches.symm]
  exact holds_of_rounded (spaced.whole_le near) spaced.least
    (spaced.filled.imp_right fun filled => HasSpacing.le_whole filled near)

/-! ## Whole mantissas -/

section Whole

variable {mantissa : ℕ} {exponent : ℤ}

theorem standsFor_exact (mantissa : ℕ) (exponent : ℤ) :
    StandsFor (.ofMantissaAndAccuracy mantissa .exact)
      (mantissa * 2 ^ exponent / 2 ^ exponent) :=
  mul_div_cancel_right₀ _ (two_zpow_pos _).ne'

theorem holds_roundExact (long : IsLong mantissa exponent) :
    ∃ rounded : ℚ, RoundsTo (mantissa * 2 ^ exponent) rounded
      ∧ Holds (roundWithAccuracy .binary64 .positive mantissa exponent .exact) rounded :=
  holds_roundWithAccuracy (standsFor_exact mantissa exponent) long

/-- Digits that are spelled down to the spacing are enough. -/
theorem isLong_spelled (positive : 0 < mantissa) (exponent : ℤ) :
    IsLong (mantissa * 2 ^ (exponent - spacing mantissa exponent).toNat)
      (exponent - (exponent - spacing mantissa exponent).toNat) := by
  have reached := Nat.log2_self_le positive.ne'
  by_cases least : exponent - (exponent - spacing mantissa exponent).toNat ≤ -1074
  · exact .inr least
  · left
    have digits : 52 ≤ mantissa.log2 + (exponent - spacing mantissa exponent).toNat := by
      unfold spacing at least ⊢
      omega
    calc 2 ^ 52
        ≤ 2 ^ (mantissa.log2 + (exponent - spacing mantissa exponent).toNat) :=
          Nat.pow_le_pow_right (by decide) digits
      _ = 2 ^ mantissa.log2 * 2 ^ (exponent - spacing mantissa exponent).toNat := Nat.pow_add ..
      _ ≤ mantissa * 2 ^ (exponent - spacing mantissa exponent).toNat :=
          Nat.mul_le_mul_right _ reached

theorem spelled_eq (mantissa : ℕ) (exponent : ℤ) (count : ℕ) :
    ((mantissa * 2 ^ count : ℕ) : ℚ) * 2 ^ (exponent - count) = mantissa * 2 ^ exponent := by
  have split := two_zpow_add (exponent - count) count
  rw [sub_add_cancel] at split
  rw [split]
  push_cast
  ring

theorem holds_round (positive : 0 < mantissa) (exponent : ℤ) :
    ∃ rounded : ℚ, RoundsTo (mantissa * 2 ^ exponent) rounded
      ∧ Holds (UnpackedFloat.round .binary64 .positive mantissa exponent) rounded := by
  unfold UnpackedFloat.round decreaseExponent
  rw [targetExponent_eq, ← spelled_eq _ _ (exponent - spacing mantissa exponent).toNat]
  dsimp only
  rw [Nat.shiftLeft_eq]
  exact holds_roundExact (isLong_spelled positive exponent)

theorem holds_normalize (mantissa : ℕ) (exponent : ℤ) :
    ∃ rounded : ℚ, RoundsTo (mantissa * 2 ^ exponent) rounded
      ∧ Holds (UnpackedFloat.normalize .binary64 mantissa exponent .positive) rounded := by
  obtain rfl | positive := Nat.eq_zero_or_pos mantissa
  · refine ⟨0, ?_, .zero⟩
    rw [Nat.cast_zero, zero_mul]
    exact roundsTo_zero
  · have isGreater : compare (mantissa : ℤ) 0 = .gt := compare_gt_iff_gt.2 (by omega)
    unfold UnpackedFloat.normalize
    rw [isGreater]
    exact holds_round positive exponent

end Whole

end MediaSplit.Double
