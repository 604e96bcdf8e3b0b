import MediaSplit.Proofs.Avc.Sps.RoundTrip

/-!
Contract: crops of pictures with colour for every other pixel, or for each.

Owns: what is found of the size of such pictures, and exactly when this is the
size by the standard.

Does **not** own: pictures with less colour, whose crop is found by the standard
(`MediaSplit.Proofs.Avc.Sps.RoundTrip`).

A unit of the crop is found to be two pixels in both directions of a frame. By
the standard it is one row in both samplings, and one pixel of a row where each
pixel has colour, whether or not colours have planes of their own.
-/

set_option autoImplicit false

namespace MediaSplit.Avc.SpsForm

/-- Taking units of another size away leaves the same exactly if there are no
units, or nothing is left by the smaller ones. -/
theorem sub_two_mul_eq_iff (coded factor units : Nat) :
    coded - 2 * factor * units = coded - factor * units
      ↔ factor * units = 0 ∨ coded ≤ factor * units := by
  rw [Nat.mul_assoc]
  omega

section Cropped

variable {form : SpsForm}

theorem cropUnit_eq_two (sampled : form.chromaFormat = 2 ∨ form.chromaFormat = 3) :
    (Sps.ofForm form).cropUnit = 2 := by
  show (if form.chromaFormat = 0 then 1 else 2) = 2
  rw [if_neg (by omega)]

theorem cropUnitDown_eq (sampled : form.chromaFormat = 2 ∨ form.chromaFormat = 3) :
    form.cropUnitDown = form.fieldFactor := by
  rw [cropUnitDown, if_neg (by omega), Nat.one_mul]

/-- The rows that are found are those of the standard exactly if no row is
cropped, or if the standard leaves none either. -/
theorem height_ofForm_eq_iff
    (sampled : form.chromaFormat = 2 ∨ form.chromaFormat = 3)
    (found : (Sps.ofForm form).height = form.codedHeight - 2 * form.fieldFactor * form.unitsDown) :
    (Sps.ofForm form).height = form.height
      ↔ form.unitsDown = 0 ∨ form.codedHeight ≤ form.fieldFactor * form.unitsDown := by
  have positive := Sps.fieldFactor_pos (Sps.ofForm form)
  rw [Sps.fieldFactor_ofForm] at positive
  rw [found, height, cropUnitDown_eq sampled, sub_two_mul_eq_iff, Nat.mul_eq_zero]
  have notNone : form.fieldFactor ≠ 0 := Nat.ne_of_gt positive
  simp only [notNone, false_or]

/-- The pixels of a row that are found are those of the standard exactly if only
every other pixel has colour, if none is cropped, or if the standard leaves none
either. -/
theorem width_ofForm_eq_iff
    (sampled : form.chromaFormat = 2 ∨ form.chromaFormat = 3)
    (found : (Sps.ofForm form).width = form.codedWidth - 2 * form.unitsAcross) :
    (Sps.ofForm form).width = form.width
      ↔ form.chromaFormat = 2 ∨ form.unitsAcross = 0 ∨ form.codedWidth ≤ form.unitsAcross := by
  rw [found, width, cropUnitAcross]
  rcases sampled with everyOther | each
  · simp [everyOther]
  · have one : (if form.chromaFormat = 1 ∨ form.chromaFormat = 2 then 2 else 1) = 1 :=
      if_neg (by omega)
    have notEveryOther : ¬ form.chromaFormat = 2 := by omega
    have units := sub_two_mul_eq_iff form.codedWidth 1 form.unitsAcross
    rw [Nat.mul_one, Nat.one_mul] at units
    rw [one, Nat.one_mul, units]
    simp only [notEveryOther, false_or]

/-- **The crop of pictures with more colour** is found in units of two pixels, which
gives the size by the standard just where the units make no difference. -/
theorem exists_parse_cropped_iff
    (writable : form.IsWritable)
    (sampled : form.chromaFormat = 2 ∨ form.chromaFormat = 3)
    (widthFits : form.codedWidth < 2 ^ 32)
    (heightFits : form.codedHeight < 2 ^ 32)
    (acrossFits : 2 * form.unitsAcross < 2 ^ 32)
    (downFits : 2 * form.fieldFactor * form.unitsDown < 2 ^ 32)
    (rest : List Bool) :
    ∃ sps, Sps.parse ((form.write .empty).append rest).toBytes = .ok sps
      ∧ sps.width = form.codedWidth - 2 * form.unitsAcross
      ∧ sps.height = form.codedHeight - 2 * form.fieldFactor * form.unitsDown
      ∧ (sps.width = form.width
          ↔ form.chromaFormat = 2 ∨ form.unitsAcross = 0 ∨ form.codedWidth ≤ form.unitsAcross)
      ∧ (sps.height = form.height
          ↔ form.unitsDown = 0 ∨ form.codedHeight ≤ form.fieldFactor * form.unitsDown) := by
  have two := cropUnit_eq_two sampled
  have width := Sps.width_ofForm widthFits (by rwa [two])
  have height := Sps.height_ofForm heightFits (by rwa [two])
  rw [two] at width height
  have parsed := Sps.parse_toBytes writable (by rwa [two]) (by rwa [two]) rest
  exact ⟨Sps.ofForm form, parsed, width, height,
    width_ofForm_eq_iff sampled width, height_ofForm_eq_iff sampled height⟩

end Cropped

/-- Field pictures with colour for each pixel, in planes of their own. -/
def planesForm : SpsForm :=
  { profile := 244
    constraintFlags := 0
    level := 51
    id := 0
    chroma := some ⟨3, true, 0, 0, false, none⟩
    frameNumberSize := 0
    order := .inOrder
    referenceFrames := 4
    mayHaveGaps := false
    columnField := 119
    rowField := 33
    fieldChoice := some false
    infersMotion := true
    crop := some ⟨1, 2, 0, 4⟩
    usability := none }

theorem exists_parse_cropped_planesForm :
    planesForm.IsWritable
      ∧ (planesForm.chromaFormat = 2 ∨ planesForm.chromaFormat = 3)
      ∧ planesForm.codedWidth < 2 ^ 32
      ∧ planesForm.codedHeight < 2 ^ 32
      ∧ 2 * planesForm.unitsAcross < 2 ^ 32
      ∧ 2 * planesForm.fieldFactor * planesForm.unitsDown < 2 ^ 32
      ∧ ∃ sps, Sps.parse ((planesForm.write .empty).append [false]).toBytes = .ok sps
        ∧ sps.width = 1914
        ∧ sps.height = 1072
        ∧ sps.width ≠ planesForm.width
        ∧ sps.height ≠ planesForm.height := by
  have writable : planesForm.IsWritable := by decide +kernel
  have sampled : planesForm.chromaFormat = 2 ∨ planesForm.chromaFormat = 3 := .inr rfl
  have widthFits : planesForm.codedWidth < 2 ^ 32 := by decide
  have heightFits : planesForm.codedHeight < 2 ^ 32 := by decide
  have acrossFits : 2 * planesForm.unitsAcross < 2 ^ 32 := by decide
  have downFits : 2 * planesForm.fieldFactor * planesForm.unitsDown < 2 ^ 32 := by decide
  obtain ⟨sps, parsed, width, height, sameWidth, sameHeight⟩ :=
    exists_parse_cropped_iff writable sampled widthFits heightFits acrossFits downFits [false]
  refine ⟨writable, sampled, widthFits, heightFits, acrossFits, downFits, sps, parsed, width,
    height, ?_, ?_⟩
  · rw [ne_eq, sameWidth]
    decide
  · rw [ne_eq, sameHeight]
    decide

/-- Pictures of 1920 by 1080 pixels with colour for every other one. -/
def everyOtherForm : SpsForm :=
  { profile := 122
    constraintFlags := 0
    level := 41
    id := 0
    chroma := some ⟨2, false, 2, 2, false, none⟩
    frameNumberSize := 0
    order := .counted 2
    referenceFrames := 4
    mayHaveGaps := false
    columnField := 119
    rowField := 67
    fieldChoice := none
    infersMotion := true
    crop := some ⟨0, 0, 0, 8⟩
    usability := none }

/-- The size that is found is not always that of the standard: of 1080 rows only
1072 are left. -/
theorem not_standardSize_everyOtherForm :
    ¬ ∀ (form : SpsForm) (rest : List Bool),
        form.IsWritable →
        form.chromaFormat = 2 ∨ form.chromaFormat = 3 →
        form.crop.isSome = true →
        form.codedWidth < 2 ^ 32 →
        form.codedHeight < 2 ^ 32 →
        2 * form.unitsAcross < 2 ^ 32 →
        2 * form.fieldFactor * form.unitsDown < 2 ^ 32 →
        ∃ sps, Sps.parse ((form.write .empty).append rest).toBytes = .ok sps
          ∧ sps.width = form.width
          ∧ sps.height = form.height := by
  intro standardSize
  have writable : everyOtherForm.IsWritable := by decide +kernel
  obtain ⟨sps, parsed, -, sameHeight⟩ := standardSize everyOtherForm [] writable (.inl rfl) rfl
    (by decide) (by decide) (by decide) (by decide)
  cases (Sps.parse_toBytes writable (by decide) (by decide) []).symm.trans parsed
  exact absurd sameHeight (by decide)

end MediaSplit.Avc.SpsForm
