import MediaSplit.Avc.Sps.Writing
import MediaSplit.Proofs.Avc.Sps.Reading

/-!
Contract: a parameter set that is written with a bit writer is parsed back.

Owns:
- `Sps.parse_toBytes`, parsing of what a writer has been given, and of any bytes
  that begin with the bits of a parameter set (`parse_of_ofBytes`);
- the picture size that is found, as long as the coded size and the products of
  the crop have 32 bits;
- `SpsForm.exists_parse_toBytes`: without colour and where every fourth pixel has
  colour, what is found is what the elements tell.

Does **not** own: pictures with more colour, whose crop the standard counts in
other units (`MediaSplit.Proofs.Avc.Sps.Cropping`).
-/

set_option autoImplicit false

namespace MediaSplit.Avc

namespace Sps

variable {form : SpsForm}

/-- The products of a crop, as long as they fit, are those of its units. -/
theorem fits_cropNumbers_ofForm
    (acrossFits : (ofForm form).cropUnit * form.unitsAcross < 2 ^ 32)
    (downFits : (ofForm form).cropUnit * form.fieldFactor * form.unitsDown < 2 ^ 32) :
    ∀ number ∈ (ofForm form).cropNumbers, number.Fits := by
  have bounded {unit count : Nat} (fits : unit * count < 2 ^ 32) :
      unit * clamped count < 2 ^ 32 :=
    Nat.lt_of_le_of_lt (Nat.mul_le_mul_left unit (Nat.min_le_left _ _)) fits
  intro number member
  rcases fits_or_cropProduct_of_mem member with ⟨_, rfl, fits⟩ | ⟨crop, isCrop, rfl | rfl⟩
  · exact fits
  · have units : form.unitsAcross = crop.left + crop.right := by
      rw [SpsForm.unitsAcross, show form.crop = some crop from isCrop]
    rw [units] at acrossFits
    exact bounded acrossFits
  · have units : form.unitsDown = crop.top + crop.bottom := by
      rw [SpsForm.unitsDown, show form.crop = some crop from isCrop]
    rw [units] at downFits
    exact bounded downFits

theorem parse_of_ofBytes
    {data : Bytes}
    {rest : List Bool}
    (writable : form.IsWritable)
    (acrossFits : (ofForm form).cropUnit * form.unitsAcross < 2 ^ 32)
    (downFits : (ofForm form).cropUnit * form.fieldFactor * form.unitsDown < 2 ^ 32)
    (begins : Bits.ofBytes data = form.bits ++ rest) :
    parse data = .ok (ofForm form) := by
  have cropFits := fits_cropNumbers_ofForm acrossFits downFits
  have answered := reads_read writable cropFits (BitReader.ofBytes data) rest begins
  exact congrArg Prod.fst answered

theorem parse_toBytes
    (writable : form.IsWritable)
    (acrossFits : (ofForm form).cropUnit * form.unitsAcross < 2 ^ 32)
    (downFits : (ofForm form).cropUnit * form.fieldFactor * form.unitsDown < 2 ^ 32)
    (rest : List Bool) :
    parse ((form.write .empty).append rest).toBytes = .ok (ofForm form) := by
  have written : ((form.write .empty).append rest).bits = form.bits ++ rest := by
    rw [SpsForm.write_eq writable, BitWriter.append_append, BitWriter.bits_append]
    exact List.nil_append _
  have padded := ((form.write .empty).append rest).ofBytes_data
  rw [written, List.append_assoc] at padded
  exact parse_of_ofBytes writable acrossFits downFits padded

/-! ## Picture size -/

/-- A product that has 32 bits is not changed by the bound of its factor. -/
theorem mul_clamped
    {unit count : Nat}
    (positive : 0 < unit)
    (fits : unit * count < 2 ^ 32) :
    unit * clamped count = unit * count := by
  have countFits : count < 2 ^ 32 := Nat.lt_of_le_of_lt (Nat.le_mul_of_pos_left count positive) fits
  rw [clamped_of_lt countFits]

theorem fieldFactor_ofForm (form : SpsForm) : (ofForm form).fieldFactor = form.fieldFactor := rfl

theorem codedWidth_ofForm (fits : form.codedWidth < 2 ^ 32) :
    (ofForm form).codedWidth = form.codedWidth := by
  have columnsFit : form.columnField + 1 < 2 ^ 32 := by
    unfold SpsForm.codedWidth at fits
    omega
  show clamped (16 * clamped (form.columnField + 1)) = _
  rw [clamped_of_lt columnsFit]
  exact clamped_of_lt fits

theorem codedHeight_ofForm (fits : form.codedHeight < 2 ^ 32) :
    (ofForm form).codedHeight = form.codedHeight := by
  have rowsFit : 16 * (form.rowField + 1) < 2 ^ 32 :=
    Nat.lt_of_le_of_lt (Nat.le_mul_of_pos_right _ (fieldFactor_pos (ofForm form))) fits
  show clamped (clamped (16 * clamped (form.rowField + 1)) * form.fieldFactor) = _
  rw [clamped_of_lt (show form.rowField + 1 < 2 ^ 32 by omega), clamped_of_lt rowsFit]
  exact clamped_of_lt fits

theorem width_ofForm
    (codedFits : form.codedWidth < 2 ^ 32)
    (cropFits : (ofForm form).cropUnit * form.unitsAcross < 2 ^ 32) :
    (ofForm form).width = form.codedWidth - (ofForm form).cropUnit * form.unitsAcross := by
  have coded := codedWidth_ofForm codedFits
  cases present : form.crop with
  | none =>
      have isCrop : (ofForm form).crop = none := present
      have nothing : form.unitsAcross = 0 := by rw [SpsForm.unitsAcross, present]
      rw [width, isCrop, nothing]
      exact coded
  | some crop =>
      have isCrop : (ofForm form).crop = some crop := present
      have units : form.unitsAcross = crop.left + crop.right := by
        rw [SpsForm.unitsAcross, present]
      rw [units] at cropFits ⊢
      rw [width, isCrop]
      dsimp only
      rw [coded, mul_clamped (cropUnit_pos _) cropFits]

theorem height_ofForm
    (codedFits : form.codedHeight < 2 ^ 32)
    (cropFits : (ofForm form).cropUnit * form.fieldFactor * form.unitsDown < 2 ^ 32) :
    (ofForm form).height
      = form.codedHeight - (ofForm form).cropUnit * form.fieldFactor * form.unitsDown := by
  have coded := codedHeight_ofForm codedFits
  cases present : form.crop with
  | none =>
      have isCrop : (ofForm form).crop = none := present
      have nothing : form.unitsDown = 0 := by rw [SpsForm.unitsDown, present]
      rw [height, isCrop, nothing]
      exact coded
  | some crop =>
      have isCrop : (ofForm form).crop = some crop := present
      have units : form.unitsDown = crop.top + crop.bottom := by rw [SpsForm.unitsDown, present]
      have positive := Nat.mul_pos (cropUnit_pos (ofForm form)) (fieldFactor_pos (ofForm form))
      rw [units] at cropFits ⊢
      rw [height, isCrop]
      dsimp only
      rw [coded, mul_clamped positive cropFits]
      rfl

/-! ## Use of the pictures -/

theorem pixelShape_ofForm (form : SpsForm) :
    (ofForm form).usability.pixelShape = form.pixelShape? := by
  show ((form.usability.map UsabilityForm.usability).getD ⟨none, none⟩).pixelShape
    = form.usability.bind fun usability => usability.shape.bind ShapeForm.size?
  cases form.usability <;> rfl

theorem timing_ofForm (form : SpsForm) : (ofForm form).usability.timing = form.timing? := by
  show ((form.usability.map UsabilityForm.usability).getD ⟨none, none⟩).timing
    = form.usability.bind UsabilityForm.timing?
  cases form.usability <;> rfl

end Sps

namespace SpsForm

variable {form : SpsForm}

theorem cropUnit_eq_of_le_one (sampled : form.chromaFormat ≤ 1) :
    (Sps.ofForm form).cropUnit = form.cropUnitAcross
      ∧ (Sps.ofForm form).cropUnit * form.fieldFactor = form.cropUnitDown := by
  have sampling : form.chromaFormat = 0 ∨ form.chromaFormat = 1 := by omega
  unfold Sps.cropUnit cropUnitAcross cropUnitDown
  show (if form.chromaFormat = 0 then 1 else 2) = _
    ∧ (if form.chromaFormat = 0 then 1 else 2) * _ = _
  rcases sampling with none | fourth
  · simp [none]
  · simp [fourth]

/-- **Parsing undoes writing**: a parameter set without colour, or with colour for
every fourth pixel, tells just what was written, whatever the writer is given
behind the timing. -/
theorem exists_parse_toBytes
    (writable : form.IsWritable)
    (sampled : form.chromaFormat = 0 ∨ form.chromaFormat = 1)
    (fits : form.FitsWords)
    (rest : List Bool) :
    ∃ sps, Sps.parse ((form.write .empty).append rest).toBytes = .ok sps
      ∧ sps.profile = form.profile
      ∧ sps.constraintFlags = form.constraintFlags
      ∧ sps.level = form.level
      ∧ sps.width = form.codedWidth - form.cropUnitAcross * form.unitsAcross
      ∧ sps.height = form.codedHeight - form.cropUnitDown * form.unitsDown
      ∧ sps.usability.pixelShape = form.pixelShape?
      ∧ sps.usability.timing = form.timing? := by
  obtain ⟨widthFits, heightFits, acrossFits, downFits⟩ := fits
  have few : form.chromaFormat ≤ 1 := by omega
  obtain ⟨across, down⟩ := cropUnit_eq_of_le_one few
  have width := Sps.width_ofForm widthFits (by rwa [across])
  have height := Sps.height_ofForm heightFits (by rwa [down])
  rw [across] at width
  rw [down] at height
  have parsed := Sps.parse_toBytes writable (by rwa [across]) (by rwa [down]) rest
  exact ⟨Sps.ofForm form, parsed, rfl, rfl, rfl, width, height, Sps.pixelShape_ofForm form,
    Sps.timing_ofForm form⟩

/-- A parameter set with all that can be written: scaling lists of which one ends
early and one goes to its end, a cycle with the ends of the signed codes, field
pictures, a crop and a pixel shape that is written out. -/
def fullForm : SpsForm :=
  { profile := 100
    constraintFlags := 0xC0
    level := 40
    id := 2
    chroma := some
      { format := 1
        hasPlanes := false
        lumaDepth := 2
        chromaDepth := 6
        isLossless := true
        scaling := some
          ⟨[some [1, -128, 119], none, some (List.replicate 16 3), none, none, some [-8]],
            [some (List.replicate 64 0), none]⟩ }
    frameNumberSize := 12
    order := .cyclic true (2 ^ 31 - 1) (1 - 2 ^ 31) [0, -5, 1000000]
    referenceFrames := 2 ^ 32 - 2
    mayHaveGaps := true
    columnField := 119
    rowField := 33
    fieldChoice := some true
    infersMotion := true
    crop := some ⟨0, 2, 1, 1⟩
    usability := some
      { shape := some (.written 64 45)
        overscan := some true
        signal := some (5, some 0x010101)
        chromaPlaces := some (0, 5)
        timing := some (1001, 60000) } }

theorem exists_parse_toBytes_fullForm :
    fullForm.IsWritable
      ∧ (fullForm.chromaFormat = 0 ∨ fullForm.chromaFormat = 1)
      ∧ fullForm.FitsWords
      ∧ ∃ sps, Sps.parse ((fullForm.write .empty).append [true, false, true]).toBytes = .ok sps
        ∧ sps.profile = 100
        ∧ sps.constraintFlags = 0xC0
        ∧ sps.level = 40
        ∧ sps.width = 1916
        ∧ sps.height = 1080
        ∧ sps.usability.pixelShape = some (64, 45)
        ∧ sps.usability.timing = some (1001, 60000) := by
  have writable : fullForm.IsWritable := by decide +kernel
  have sampled : fullForm.chromaFormat = 0 ∨ fullForm.chromaFormat = 1 := .inr rfl
  have fits : fullForm.FitsWords := by decide
  exact ⟨writable, sampled, fits, exists_parse_toBytes writable sampled fits [true, false, true]⟩

end SpsForm

end MediaSplit.Avc
