import MediaSplit.Time.Linear

/-!
Contract: rounding a quotient to the nearest whole number.

Owns: `IsRounded`, that a whole number is the nearest one to a quotient and, of two
nearest ones, the one that is further from zero. There is exactly one, the one that
truncating division finds behind a step of half a divisor.

Rounding is a mirror image about zero, keeps the order and leaves whole quotients as
they are.
-/

set_option autoImplicit false

namespace MediaSplit.Time

/-- Whether a whole number is the nearest one to `dividend / divisor`, the one
further from zero if there are two. -/
structure IsRounded (dividend divisor quotient : Int) : Prop where
  nearest : 2 * ((divisor * quotient - dividend).natAbs : Int) ≤ divisor
  awayFromZero :
    2 * ((divisor * quotient - dividend).natAbs : Int) = divisor →
      dividend.natAbs < (divisor * quotient).natAbs

variable {dividend divisor quotient : Int}

theorem isRounded_of_lt
    (near : 2 * ((divisor * quotient - dividend).natAbs : Int) < divisor) :
    IsRounded dividend divisor quotient where
  nearest := Int.le_of_lt near
  awayFromZero tied := absurd tied (Int.ne_of_lt near)

theorem IsRounded.neg (rounded : IsRounded dividend divisor quotient) :
    IsRounded (-dividend) divisor (-quotient) := by
  have mirrored : divisor * -quotient - -dividend = -(divisor * quotient - dividend) := by
    rw [Int.mul_neg]
    omega
  refine ⟨?_, ?_⟩
  · rw [mirrored, Int.natAbs_neg]
    exact rounded.nearest
  · rw [mirrored, Int.natAbs_neg, Int.mul_neg, Int.natAbs_neg, Int.natAbs_neg]
    exact rounded.awayFromZero

theorem isRounded_neg_iff :
    IsRounded (-dividend) divisor (-quotient) ↔ IsRounded dividend divisor quotient := by
  refine ⟨fun rounded => ?_, IsRounded.neg⟩
  have mirrored := rounded.neg
  rwa [Int.neg_neg, Int.neg_neg] at mirrored

/-- From zero upwards, what a quotient is rounded to lies above it by at most a half
or below it by less. -/
theorem isRounded_iff_of_nonneg (nonneg : 0 ≤ dividend) (positive : 0 < divisor) :
    IsRounded dividend divisor quotient
      ↔ 2 * dividend - divisor < 2 * (divisor * quotient)
        ∧ 2 * (divisor * quotient) ≤ 2 * dividend + divisor := by
  -- No multiple of the divisor lies between minus a half of it and zero.
  have product_nonneg : -divisor < divisor * quotient → 0 ≤ divisor * quotient := by
    intro above
    have whole : -1 < quotient := by
      apply Int.lt_of_mul_lt_mul_left (a := divisor) _ (Int.le_of_lt positive)
      omega
    exact Int.mul_nonneg (Int.le_of_lt positive) (by omega)
  constructor
  · rintro ⟨nearest, awayFromZero⟩
    have := product_nonneg (by omega)
    omega
  · rintro ⟨lower, upper⟩
    have := product_nonneg (by omega)
    exact ⟨by omega, fun _ => by omega⟩

namespace Linear

theorem roundedQuotient_of_nonneg (nonneg : 0 ≤ dividend) (positive : 0 < divisor) :
    roundedQuotient dividend divisor = (dividend + divisor / 2) / divisor := by
  have half : 0 ≤ divisor / 2 := by omega
  unfold roundedQuotient
  rw [if_pos nonneg, Int.tdiv_eq_ediv_of_nonneg (Int.le_of_lt positive),
    Int.tdiv_eq_ediv_of_nonneg (by omega)]

theorem roundedQuotient_of_neg (negative : dividend < 0) :
    roundedQuotient dividend divisor = -roundedQuotient (-dividend) divisor := by
  unfold roundedQuotient
  rw [if_neg (by omega), if_pos (by omega), ← Int.neg_tdiv]
  congr 1
  omega

end Linear

/-- The rounded quotient is the only whole number that the quotient is rounded to. -/
theorem isRounded_iff (positive : 0 < divisor) :
    IsRounded dividend divisor quotient
      ↔ quotient = Linear.roundedQuotient dividend divisor := by
  have upper : ∀ {dividend quotient : Int}, 0 ≤ dividend →
      (IsRounded dividend divisor quotient
        ↔ quotient = Linear.roundedQuotient dividend divisor) := by
    intro dividend quotient nonneg
    rw [isRounded_iff_of_nonneg nonneg positive,
      Linear.roundedQuotient_of_nonneg nonneg positive, eq_comm,
      Int.ediv_eq_iff_of_pos positive, Int.mul_comm quotient]
    omega
  by_cases nonneg : 0 ≤ dividend
  · exact upper nonneg
  · rw [Linear.roundedQuotient_of_neg (Int.not_le.1 nonneg), ← isRounded_neg_iff,
      upper (by omega)]
    omega

theorem isRounded_roundedQuotient (positive : 0 < divisor) :
    IsRounded dividend divisor (Linear.roundedQuotient dividend divisor) :=
  (isRounded_iff positive).2 rfl

namespace Linear

theorem roundedQuotient_neg (positive : 0 < divisor) :
    roundedQuotient (-dividend) divisor = -roundedQuotient dividend divisor :=
  ((isRounded_iff positive).1 (isRounded_roundedQuotient positive).neg).symm

theorem roundedQuotient_mono
    {lesser greater : Int}
    (positive : 0 < divisor)
    (ordered : lesser ≤ greater) :
    roundedQuotient lesser divisor ≤ roundedQuotient greater divisor := by
  have least : IsRounded lesser divisor _ := isRounded_roundedQuotient positive
  have greatest : IsRounded greater divisor _ := isRounded_roundedQuotient positive
  have below := least.nearest
  have above := greatest.nearest
  apply Int.not_lt.1
  intro crossed
  -- Results that cross are a whole divisor apart, twice what rounding can move one by.
  have apart : divisor * (roundedQuotient greater divisor + 1)
      ≤ divisor * roundedQuotient lesser divisor :=
    Int.mul_le_mul_of_nonneg_left crossed (Int.le_of_lt positive)
  rw [Int.mul_add, Int.mul_one] at apart
  have same : lesser = greater := by omega
  rw [same] at crossed
  exact Int.lt_irrefl _ crossed

theorem roundedQuotient_mul_self (positive : 0 < divisor) (value : Int) :
    roundedQuotient (value * divisor) divisor = value := by
  have exactly : divisor * value - value * divisor = 0 := by
    rw [Int.mul_comm, Int.sub_self]
  have rounded : IsRounded (value * divisor) divisor value :=
    isRounded_of_lt (by omega)
  exact ((isRounded_iff positive).1 rounded).symm

end Linear

end MediaSplit.Time
