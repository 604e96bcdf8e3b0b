import MediaSplit.Proofs.Double.Rounding

/-!
Contract: doubles that are not negative survive being packed.

Owns: `Double.clipped`, which makes infinity of what is too large for a double,
and `Double.holds_unpack_pack`, which says that packing does so and nothing else.
-/

set_option autoImplicit false

namespace MediaSplit.Double

open Float.Model Float.Model.UnpackedFloat

/-- A number rounded to 53 binary digits, or infinity where it is too large. -/
def clipped (rounded : ℚ) : WithTop ℚ := if rounded < 2 ^ (1024 : ℤ) then rounded else ⊤

theorem clipped_mono {lesser greater : ℚ} (ordered : lesser ≤ greater) :
    clipped lesser ≤ clipped greater := by
  unfold clipped
  split
  · split
    · exact WithTop.coe_le_coe.2 ordered
    · exact le_top
  · rw [if_neg (by linarith)]

theorem le_clipped (rounded : ℚ) : rounded ≤ clipped rounded := by
  unfold clipped
  split
  · exact le_rfl
  · exact le_top

/-! ## Fields -/

theorem unpackSign_packComponents
    {format : Format}
    {sign : Sign}
    {exponent : BitVec format.exponentBits}
    {mantissa : BitVec format.mantissaBitsWithoutImplicit} :
    unpackSign (packComponents format sign exponent mantissa) = sign.toBitVec := by
  apply BitVec.eq_of_getLsbD_eq
  intro place isSign
  obtain rfl : place = 0 := by omega
  unfold unpackSign packComponents
  simp [BitVec.getLsbD_append, BitVec.getElem_append]

theorem finite_eq
    {sign otherSign : Sign}
    {mantissa other : ℕ}
    {exponent otherExponent : ℤ}
    {positive : 0 < mantissa}
    {otherPositive : 0 < other}
    (sameSign : sign = otherSign)
    (sameMantissa : mantissa = other)
    (sameExponent : exponent = otherExponent) :
    UnpackedFloat.finite sign mantissa exponent positive
      = .finite otherSign other otherExponent otherPositive := by
  subst sameSign sameMantissa sameExponent
  rfl

section Fields

variable {exponentField : BitVec Format.binary64.exponentBits}
variable {mantissaField : BitVec Format.binary64.mantissaBitsWithoutImplicit}

theorem sign_packComponents :
    Sign.ofBitVec (unpackSign (packComponents .binary64 .positive exponentField mantissaField))
      = .positive := by
  rw [unpackSign_packComponents]
  rfl

theorem unpack_normal
    (finite : exponentField ≠ -1#_)
    (normal : exponentField ≠ 0#_) :
    ∃ positive, UnpackedFloat.unpack .binary64
        (packComponents .binary64 .positive exponentField mantissaField)
      = .finite .positive (2 ^ 52 + mantissaField.toNat) (exponentField.toNat - 1075) positive := by
  have digits : (1#1 ++ mantissaField).toNat = 2 ^ 52 + mantissaField.toNat := by
    rw [BitVec.toNat_append, ← Nat.shiftLeft_add_eq_or_of_lt mantissaField.isLt]
    rfl
  rw [← @unpackExponent_packComponents .binary64 .positive exponentField mantissaField]
    at finite normal
  refine ⟨by omega, ?_⟩
  unfold UnpackedFloat.unpack
  dsimp only
  rw [if_neg finite, if_neg normal]
  refine finite_eq sign_packComponents ?_ ?_
  · rw [unpackMantissa_packComponents]
    exact digits
  · rw [unpackExponent_packComponents]
    rfl

theorem unpack_subnormal (nonzero : mantissaField ≠ 0#_) :
    ∃ positive, UnpackedFloat.unpack .binary64
        (packComponents .binary64 .positive 0#_ mantissaField)
      = .finite .positive mantissaField.toNat (-1074) positive := by
  refine ⟨by simpa [BitVec.toNat_pos, BitVec.pos_iff_ne_zero], ?_⟩
  have isZero := @unpackExponent_packComponents .binary64 .positive 0#_ mantissaField
  have finite : unpackExponent (packComponents .binary64 .positive 0#_ mantissaField) ≠ -1#_ := by
    rw [isZero]
    decide
  rw [← @unpackMantissa_packComponents .binary64 .positive 0#_ mantissaField] at nonzero
  unfold UnpackedFloat.unpack
  dsimp only
  rw [if_neg finite, if_pos isZero, dif_neg nonzero]
  refine finite_eq sign_packComponents ?_ ?_
  · rw [unpackMantissa_packComponents]
  · rw [isZero]
    rfl

end Fields

/-! ## Doubles -/

section Doubles

variable {mantissa : ℕ} {exponent : ℤ} {positive : 0 < mantissa}

theorem pack_of_large (large : 971 < exponent) :
    UnpackedFloat.pack .binary64 (.finite .positive mantissa exponent positive)
      = packedInfinity .binary64 .positive := by
  unfold UnpackedFloat.pack
  dsimp only
  rw [if_pos]
  show 2 ^ 11 ≤ (exponent + (1023 : ℕ) + (52 : ℕ)).toNat + 1
  omega

/-- The exponent as it is packed. -/
def biased (exponent : ℤ) : ℕ := (exponent + 1075).toNat

theorem pack_of_fits (fits : exponent ≤ 971) :
    UnpackedFloat.pack .binary64 (.finite .positive mantissa exponent positive)
      = if mantissa.log2 = 52 then
          packComponents .binary64 .positive (.ofNat _ (biased exponent)) (.ofNat _ mantissa)
        else packComponents .binary64 .positive 0#_ (.ofNat _ mantissa) := by
  have inRange : ¬ 2 ^ 11 ≤ biased exponent + 1 := by
    unfold biased
    omega
  have isBiased : (exponent + Format.binary64.exponentBias
      + Format.binary64.mantissaBitsWithoutImplicit).toNat = biased exponent := by
    show (exponent + (1023 : ℕ) + (52 : ℕ)).toNat = _
    unfold biased
    omega
  unfold UnpackedFloat.pack
  dsimp only at isBiased ⊢
  rw [isBiased, if_neg inRange]
  refine ite_congr (propext ?_) (fun _ => rfl) (fun _ => rfl)
  show mantissa.log2 + 1 = 53 ↔ _
  omega

theorem unpack_pack_of_normal
    (below : mantissa < 2 ^ 53)
    (full : 2 ^ 52 ≤ mantissa)
    (least : -1074 ≤ exponent)
    (fits : exponent ≤ 971) :
    UnpackedFloat.unpack .binary64
        (UnpackedFloat.pack .binary64 (.finite .positive mantissa exponent positive))
      = .finite .positive mantissa exponent positive := by
  have digits : mantissa.log2 = 52 := by
    have atLeast := (Nat.le_log2 positive.ne').2 full
    have atMost := (Nat.log2_lt positive.ne').2 below
    omega
  have exponentIs : (BitVec.ofNat 11 (biased exponent)).toNat = biased exponent := by
    rw [BitVec.toNat_ofNat, Nat.mod_eq_of_lt]
    unfold biased
    omega
  have field_ne {field : BitVec 11} (differs : biased exponent ≠ field.toNat) :
      BitVec.ofNat 11 (biased exponent) ≠ field := fun same =>
    differs (exponentIs.symm.trans (congrArg BitVec.toNat same))
  have finite : BitVec.ofNat 11 (biased exponent) ≠ -1#_ := by
    apply field_ne
    show biased exponent ≠ 2047
    unfold biased
    omega
  have normal : BitVec.ofNat 11 (biased exponent) ≠ 0#_ := by
    apply field_ne
    show biased exponent ≠ 0
    unfold biased
    omega
  have mantissaIs : 2 ^ 52 + (BitVec.ofNat 52 mantissa).toNat = mantissa := by
    rw [BitVec.toNat_ofNat]
    omega
  rw [pack_of_fits fits, if_pos digits]
  obtain ⟨_, unpacked⟩ := unpack_normal finite normal
  rw [unpacked]
  refine finite_eq rfl mantissaIs ?_
  show ((BitVec.ofNat 11 (biased exponent)).toNat : ℤ) - 1075 = exponent
  rw [exponentIs]
  unfold biased
  omega

theorem unpack_pack_of_subnormal (short : mantissa < 2 ^ 52) :
    UnpackedFloat.unpack .binary64
        (UnpackedFloat.pack .binary64 (.finite .positive mantissa (-1074) positive))
      = .finite .positive mantissa (-1074) positive := by
  have digits : mantissa.log2 ≠ 52 := ((Nat.log2_lt positive.ne').2 short).ne
  have mantissaIs : (BitVec.ofNat 52 mantissa).toNat = mantissa := by
    rw [BitVec.toNat_ofNat, Nat.mod_eq_of_lt short]
  have nonzero : BitVec.ofNat 52 mantissa ≠ 0#_ := fun same => by
    have sameNumber := congrArg BitVec.toNat same
    rw [mantissaIs] at sameNumber
    exact positive.ne' sameNumber
  rw [pack_of_fits (by decide), if_neg digits]
  obtain ⟨_, unpacked⟩ := unpack_subnormal nonzero
  rw [unpacked]
  exact finite_eq rfl mantissaIs rfl

theorem clipped_of_fits
    (below : mantissa < 2 ^ 53)
    (fits : exponent ≤ 971) :
    clipped (mantissa * 2 ^ exponent) = (mantissa * 2 ^ exponent : ℚ) := by
  have less : (mantissa : ℚ) < ((2 ^ 53 : ℕ) : ℚ) := by exact_mod_cast below
  have room := calc (mantissa * 2 ^ exponent : ℚ)
      < ((2 ^ 53 : ℕ) : ℚ) * 2 ^ exponent := mul_lt_mul_of_pos_right less (two_zpow_pos _)
    _ = 2 ^ (exponent + (53 : ℕ)) := by
        rw [two_zpow_add]
        push_cast
        rfl
    _ ≤ 2 ^ (1024 : ℤ) := two_zpow_le (by omega)
  exact if_pos room

theorem clipped_of_large
    (full : 2 ^ 52 ≤ mantissa)
    (large : 971 < exponent) :
    clipped (mantissa * 2 ^ exponent) = ⊤ := by
  have atLeast : ((2 ^ 52 : ℕ) : ℚ) ≤ mantissa := by exact_mod_cast full
  have above := calc (2 : ℚ) ^ (1024 : ℤ)
      ≤ 2 ^ (exponent + (52 : ℕ)) := two_zpow_le (by omega)
    _ = ((2 ^ 52 : ℕ) : ℚ) * 2 ^ exponent := by
        rw [two_zpow_add]
        push_cast
        rfl
    _ ≤ mantissa * 2 ^ exponent := mul_le_mul_of_nonneg_right atLeast (two_zpow_pos _).le
  exact if_neg (not_lt.2 above)

/-- Packing makes infinity of what is too large and keeps everything else. -/
theorem holds_unpack_pack
    {unpacked : UnpackedFloat}
    {rounded : ℚ}
    (holds : Holds unpacked rounded) :
    Holds (UnpackedFloat.unpack .binary64 (UnpackedFloat.pack .binary64 unpacked))
      (clipped rounded) := by
  cases holds with
  | zero =>
      have stays : clipped 0 = (0 : ℚ) := if_pos (two_zpow_pos _)
      rw [stays]
      exact .zero
  | @finite mantissa exponent positive canonical =>
      by_cases fits : exponent ≤ 971
      · have kept : UnpackedFloat.unpack .binary64
            (UnpackedFloat.pack .binary64 (.finite .positive mantissa exponent positive))
            = .finite .positive mantissa exponent positive := by
          by_cases full : 2 ^ 52 ≤ mantissa
          · exact unpack_pack_of_normal canonical.below full canonical.least fits
          · obtain rfl := canonical.filled.resolve_right full
            exact unpack_pack_of_subnormal (Nat.not_le.1 full)
        rw [kept, clipped_of_fits canonical.below fits]
        exact .finite canonical
      · have large := not_le.1 fits
        have full := canonical.filled.resolve_left (by omega)
        rw [pack_of_large large, clipped_of_large full large]
        exact .infinity

end Doubles

end MediaSplit.Double
