import MediaSplit.Proofs.Time.Rounding

/-!
Contract: scaling an instant gives the nearest nanosecond.

Owns:
- `Linear.scaled`, the scaled instant as an unbounded integer, which never decreases
  with the instant, and `Linear.Fits`, under which it is what `apply` gives;
- `Linear.IsInReach`, which implies that an instant and its mirror image fit, and
  `Linear.ScalesToNearest`, which every accepted ratio does there.

An instant that does not fit wraps around, so nothing is said of its order. Scaling
by more than one leaves less than half a step of the way back, so the inverse ratio
undoes it; what scaling by less than one has merged stays merged.
-/

set_option autoImplicit false

namespace MediaSplit.Time.Linear

variable {factor : Linear} {instant : Int}

theorem of?_eq_some_iff {numerator denominator : Int} :
    of? numerator denominator = some factor
      ↔ factor.numerator = numerator ∧ factor.denominator = denominator := by
  unfold of?
  constructor
  · split
    next => rintro ⟨⟩; exact ⟨rfl, rfl⟩
    next => rintro ⟨⟩
  · rintro ⟨rfl, rfl⟩
    rw [dif_pos ⟨factor.numerator_pos, factor.denominator_pos⟩]

/-! ## The scaled instant -/

/-- The scaled instant, before it is put into 64 bits. -/
def scaled (factor : Linear) (instant : Int) : Int :=
  roundedQuotient (instant * factor.numerator) factor.denominator

theorem scaled_mono (factor : Linear) {earlier later : Int} (ordered : earlier ≤ later) :
    factor.scaled earlier ≤ factor.scaled later :=
  roundedQuotient_mono factor.denominator_pos
    (Int.mul_le_mul_of_nonneg_right ordered (Int.le_of_lt factor.numerator_pos))

theorem isRounded_scaled (factor : Linear) (instant : Int) :
    IsRounded (instant * factor.numerator) factor.denominator (factor.scaled instant) :=
  isRounded_roundedQuotient factor.denominator_pos

theorem scaled_neg (factor : Linear) (instant : Int) :
    factor.scaled (-instant) = -factor.scaled instant := by
  unfold scaled
  rw [Int.neg_mul, roundedQuotient_neg factor.denominator_pos]

/-- The ratio the other way around. -/
def inverse (factor : Linear) : Linear :=
  ⟨factor.denominator, factor.numerator, factor.denominator_pos, factor.numerator_pos⟩

/-- The scaled instant is off by at most half a denominator, which is less than half
a numerator on the way back. -/
theorem scaled_inverse_scaled (above : factor.denominator < factor.numerator) :
    factor.inverse.scaled (factor.scaled instant) = instant := by
  have near := (factor.isRounded_scaled instant).nearest
  rw [Int.mul_comm factor.denominator, Int.mul_comm instant] at near
  have back : IsRounded (factor.scaled instant * factor.denominator) factor.numerator instant :=
    isRounded_of_lt (by omega)
  exact ((isRounded_iff factor.numerator_pos).1 back).symm

/-! ## Within 64 bits -/

/-- Whether the scaled instant is a signed 64-bit integer. -/
def Fits (factor : Linear) (instant : Int) : Prop :=
  -(2 ^ 63) ≤ factor.scaled instant ∧ factor.scaled instant < 2 ^ 63

instance (factor : Linear) (instant : Int) : Decidable (factor.Fits instant) := by
  unfold Fits
  infer_instance

theorem apply_eq_scaled (fits : factor.Fits instant) :
    factor.apply instant = factor.scaled instant := by
  unfold apply
  split
  next same =>
    have equal : factor.numerator = factor.denominator := by simpa [isIdentity] using same
    unfold scaled
    rw [equal, roundedQuotient_mul_self factor.denominator_pos]
  next =>
    show wrapped (factor.scaled instant) = _
    unfold wrapped
    obtain ⟨least, greatest⟩ := fits
    rw [Int.bmod_eq_of_le] <;> omega

theorem apply_identity (instant : Int) : identity.apply instant = instant := rfl

/-- Whether the exact product of ratio and instant, its fraction dropped, is at most
`2 ^ 63 - 2` in size. It is wherever the exact product itself is. -/
def IsInReach (factor : Linear) (instant : Int) : Prop :=
  ((instant * factor.numerator).tdiv factor.denominator).natAbs ≤ 2 ^ 63 - 2

instance (factor : Linear) (instant : Int) : Decidable (factor.IsInReach instant) := by
  unfold IsInReach
  infer_instance

theorem isInReach_iff :
    factor.IsInReach instant
      ↔ ((instant * factor.numerator).natAbs : Int) < (2 ^ 63 - 1) * factor.denominator := by
  have positive := factor.denominator_pos
  have truncated : ∀ size : Nat, size.div factor.denominator.natAbs ≤ 2 ^ 63 - 2
      ↔ size < (2 ^ 63 - 1) * factor.denominator.natAbs := by
    intro size
    rw [← Nat.div_lt_iff_lt_mul (by omega)]
    exact Nat.lt_succ_iff.symm
  unfold IsInReach
  rw [Int.natAbs_tdiv, truncated]
  omega

theorem natAbs_scaled_lt (reach : factor.IsInReach instant) :
    (factor.scaled instant).natAbs < 2 ^ 63 := by
  have positive := factor.denominator_pos
  have near := (factor.isRounded_scaled instant).nearest
  have below := isInReach_iff.1 reach
  have size : ((factor.denominator * factor.scaled instant).natAbs : Int)
      = factor.denominator * ((factor.scaled instant).natAbs : Int) := by
    rw [Int.natAbs_mul, Int.natCast_mul, Int.natAbs_of_nonneg (Int.le_of_lt positive)]
  have product : factor.denominator * ((factor.scaled instant).natAbs : Int)
      < factor.denominator * 2 ^ 63 := by
    omega
  have := Int.lt_of_mul_lt_mul_left product (Int.le_of_lt positive)
  omega

theorem fits_of_natAbs_lt (below : (factor.scaled instant).natAbs < 2 ^ 63) :
    factor.Fits instant := by
  unfold Fits
  omega

theorem IsInReach.fits (reach : factor.IsInReach instant) : factor.Fits instant :=
  fits_of_natAbs_lt (natAbs_scaled_lt reach)

theorem IsInReach.fits_neg (reach : factor.IsInReach instant) : factor.Fits (-instant) := by
  apply fits_of_natAbs_lt
  rw [scaled_neg, Int.natAbs_neg]
  exact natAbs_scaled_lt reach

/-- An instant that stays within reach while it grows was there before. -/
theorem IsInReach.natAbs_lt
    (reach : factor.IsInReach instant)
    (above : factor.denominator < factor.numerator) :
    instant.natAbs < 2 ^ 63 := by
  have positive := factor.denominator_pos
  have below := isInReach_iff.1 reach
  rw [Int.natAbs_mul, Int.natCast_mul,
    Int.natAbs_of_nonneg (Int.le_of_lt factor.numerator_pos)] at below
  have grown : (instant.natAbs : Int) * factor.denominator
      ≤ (instant.natAbs : Int) * factor.numerator :=
    Int.mul_le_mul_of_nonneg_left (Int.le_of_lt above) (Int.natCast_nonneg _)
  have product : factor.denominator * (instant.natAbs : Int)
      < factor.denominator * (2 ^ 63 - 1) := by
    rw [Int.mul_comm factor.denominator]
    omega
  have := Int.lt_of_mul_lt_mul_left product (Int.le_of_lt positive)
  omega

theorem apply_inverse_apply
    (reach : factor.IsInReach instant)
    (above : factor.denominator < factor.numerator) :
    factor.inverse.apply (factor.apply instant) = instant := by
  have back : factor.inverse.scaled (factor.scaled instant) = instant :=
    scaled_inverse_scaled above
  have fits : factor.inverse.Fits (factor.scaled instant) := by
    apply fits_of_natAbs_lt
    rw [back]
    exact reach.natAbs_lt above
  rw [apply_eq_scaled reach.fits, apply_eq_scaled fits, back]

theorem apply_of_numerator_eq (same : factor.numerator = factor.denominator) :
    factor.apply instant = instant := by
  have isIdentity : factor.isIdentity = true := by
    unfold Linear.isIdentity
    rw [same]
    exact beq_self_eq_true _
  unfold apply
  rw [if_pos isIdentity]

/-- What starts from numbers of 64 bits stays within 128 bits, before the division
and so behind it. -/
theorem natAbs_add_half_lt
    (numerator : factor.numerator < 2 ^ 63)
    (denominator : factor.denominator < 2 ^ 63)
    (bounded : instant.natAbs ≤ 2 ^ 63) :
    ((instant * factor.numerator).natAbs : Int) + factor.denominator / 2 < 2 ^ 127 := by
  have positive := factor.numerator_pos
  have product : instant.natAbs * factor.numerator.natAbs ≤ 2 ^ 63 * 2 ^ 63 :=
    Nat.mul_le_mul bounded (by omega)
  rw [Int.natAbs_mul]
  omega

/-! ## All laws at once -/

/-- How a ratio scales two instants, the second of which is not earlier. -/
structure ScalesToNearest (factor : Linear) (numerator denominator earlier later : Int) :
    Prop where
  /-- The result is the nearest instant, and of two the one further from zero. -/
  isRounded : IsRounded (numerator * earlier) denominator (factor.apply earlier)
  odd : factor.apply (-earlier) = -factor.apply earlier
  monotone : factor.apply earlier ≤ factor.apply later
  unchanged : numerator = denominator → factor.apply earlier = earlier
  /-- The way back is a ratio too, and it leads back. -/
  restored : denominator < numerator →
    ∃ back, of? denominator numerator = some back ∧ back.apply (factor.apply earlier) = earlier
  /-- From numbers of 64 bits on, 128 bits hold the product and what is added to it. -/
  stays : numerator < 2 ^ 63 → denominator < 2 ^ 63 → earlier.natAbs ≤ 2 ^ 63 →
    ((numerator * earlier).natAbs : Int) + denominator / 2 < 2 ^ 127

/-- A ratio of positive integers scales to the nearest instant, is odd and keeps the
order, as long as 64 bits hold what it gives. -/
theorem scalesToNearest_of_isInReach
    {numerator denominator earlier later : Int}
    {factor : Linear}
    (accepted : of? numerator denominator = some factor)
    (ordered : earlier ≤ later)
    (earlierReach : factor.IsInReach earlier)
    (laterReach : factor.IsInReach later) :
    factor.ScalesToNearest numerator denominator earlier later := by
  obtain ⟨rfl, rfl⟩ := of?_eq_some_iff.1 accepted
  refine ⟨?_, ?_, ?_, apply_of_numerator_eq, fun above => ⟨factor.inverse, ?_, ?_⟩, ?_⟩
  · rw [apply_eq_scaled earlierReach.fits, Int.mul_comm factor.numerator]
    exact factor.isRounded_scaled earlier
  · rw [apply_eq_scaled earlierReach.fits_neg, apply_eq_scaled earlierReach.fits, scaled_neg]
  · rw [apply_eq_scaled earlierReach.fits, apply_eq_scaled laterReach.fits]
    exact factor.scaled_mono ordered
  · exact of?_eq_some_iff.2 ⟨rfl, rfl⟩
  · exact apply_inverse_apply earlierReach above
  · rw [Int.mul_comm factor.numerator]
    exact natAbs_add_half_lt

/-- Seven sixths. -/
def sevenSixths : Linear := ⟨7, 6, by decide, by decide⟩

/-- One, in other words. -/
def sixSixths : Linear := ⟨6, 6, by decide, by decide⟩

/-- A half that is rounded away from zero and comes back, beside the last instant in
reach. -/
theorem scalesToNearest_sevenSixths :
    of? 7 6 = some sevenSixths
      ∧ sevenSixths.IsInReach (-3)
      ∧ sevenSixths.IsInReach 7905747460161236405
      ∧ ¬ sevenSixths.IsInReach 7905747460161236406
      ∧ sevenSixths.ScalesToNearest 7 6 (-3) 7905747460161236405
      ∧ sevenSixths.apply (-3) = -4
      ∧ sevenSixths.apply 3 = 4
      ∧ sevenSixths.apply 7905747460161236405 = 2 ^ 63 - 2
      ∧ (∃ back, of? 6 7 = some back ∧ back.apply (-4) = -3)
      ∧ sixSixths.apply (-3) = -3 := by
  have accepted : of? 7 6 = some sevenSixths := by decide
  have earlierReach : sevenSixths.IsInReach (-3) := by decide
  have laterReach : sevenSixths.IsInReach 7905747460161236405 := by decide
  have laws := scalesToNearest_of_isInReach accepted (by decide) earlierReach laterReach
  have ones : sixSixths.ScalesToNearest 6 6 (-3) (-3) :=
    scalesToNearest_of_isInReach (by decide) (Int.le_refl _) (by decide) (by decide)
  have half : sevenSixths.apply (-3) = -4 := by decide
  have mirrored : sevenSixths.apply 3 = -sevenSixths.apply (-3) := laws.odd
  have restored := laws.restored (by decide)
  rw [half] at mirrored restored
  exact ⟨accepted, earlierReach, laterReach, by decide, laws, half, mirrored, by decide,
    restored, ones.unchanged rfl⟩

end MediaSplit.Time.Linear
