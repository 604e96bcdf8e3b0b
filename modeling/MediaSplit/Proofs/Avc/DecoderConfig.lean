import MediaSplit.Avc.DecoderConfig.Form
import MediaSplit.Proofs.Bytes

/-!
Contract: the configuration record of an AVC decoder, read back.

Owns:
- what is read of a unit behind its length, and that a unit that was read has a
  length that fits into its field;
- the same for a counted run of units;
- `read?_decoderConfig_iff`: a record says what it is meant to say exactly if its
  counts and all its lengths fit.

Does **not** own: which units are parameter sets.
-/

set_option autoImplicit false

namespace MediaSplit.Avc

variable {unit data behind : Bytes} {units : List Bytes} {count : Nat}

/-! ## One unit -/

/-- As many bytes are read as the low bits of the length say. -/
theorem readUnit?_withLength (unit behind : Bytes) :
    readUnit? (unit.withLength 2 ++ behind)
      = some (unit.take (unit.length % 2 ^ 16), unit.drop (unit.length % 2 ^ 16) ++ behind) := by
  have field : (unit.withLength 2 ++ behind).numberAt? 0 2 = some (unit.length % 2 ^ 16) := by
    simp [Bytes.numberAt?, Bytes.slice, Bytes.withLength]
  have body : (unit.withLength 2 ++ behind).drop 2 = unit ++ behind := by
    rw [Bytes.withLength, List.append_assoc, List.drop_left' (Bytes.length_ofNumber 2 _)]
  have short : unit.length % 2 ^ 16 ≤ unit.length := Nat.mod_le _ _
  have enough : Bytes.hasAtLeast (unit.length % 2 ^ 16) (unit ++ behind) = true :=
    (Bytes.hasAtLeast_iff _ _).2 (by rw [List.length_append]; omega)
  simp only [readUnit?, field, Option.bind_eq_bind, Option.bind_some, body, enough, if_true,
    List.take_append_of_le_length short, List.drop_append_of_le_length short]

theorem readUnit?_withLength_of_fits (behind : Bytes) (fits : unit.length < 2 ^ 16) :
    readUnit? (unit.withLength 2 ++ behind) = some (unit, behind) := by
  rw [readUnit?_withLength, Nat.mod_eq_of_lt fits, List.take_length, List.drop_length,
    List.nil_append]

/-- Two bytes announce no more than they can hold. -/
theorem length_lt_of_readUnit? (read : readUnit? data = some (unit, behind)) :
    unit.length < 2 ^ 16 := by
  obtain ⟨length, field, taken⟩ := Option.bind_eq_some_iff.1 read
  have below : length < 2 ^ 16 := by
    unfold Bytes.numberAt? at field
    dsimp only at field
    split at field
    next width =>
      obtain rfl := Option.some.inj field
      have below := Bytes.toNumber_lt (data.slice 0 2)
      rwa [width] at below
    next => cases field
  dsimp only at taken
  split at taken
  · cases taken
    exact Nat.lt_of_le_of_lt (List.length_take_le _ _) below
  · cases taken

/-! ## A run of units -/

theorem readUnits?_flatMap_withLength
    (behind : Bytes)
    (fit : ∀ unit ∈ units, unit.length < 2 ^ 16) :
    readUnits? units.length (units.flatMap (Bytes.withLength 2) ++ behind)
      = some (units, behind) := by
  induction units with
  | nil => rfl
  | cons unit units inductionHypothesis =>
      obtain ⟨fits, others⟩ := List.forall_mem_cons.1 fit
      simp [readUnits?, List.append_assoc, readUnit?_withLength_of_fits _ fits,
        inductionHypothesis others]

theorem fit_of_readUnits? (read : readUnits? count data = some (units, behind)) :
    units.length = count ∧ ∀ unit ∈ units, unit.length < 2 ^ 16 := by
  induction count generalizing data units with
  | zero =>
      cases read
      exact ⟨rfl, List.forall_mem_nil _⟩
  | succ count inductionHypothesis =>
      obtain ⟨⟨unit, afterUnit⟩, readFirst, more⟩ := Option.bind_eq_some_iff.1 read
      obtain ⟨⟨others, afterOthers⟩, readOthers, same⟩ := Option.bind_eq_some_iff.1 more
      cases same
      obtain ⟨length, fit⟩ := inductionHypothesis readOthers
      exact ⟨congrArg (· + 1) length,
        List.forall_mem_cons.2 ⟨length_lt_of_readUnit? readFirst, fit⟩⟩

/-! ## The record -/

/-- A record that can be read is within the bounds of its fields. -/
theorem fit_of_read?
    {form : DecoderConfigForm}
    (read : DecoderConfigForm.read? data = some (form, behind)) :
    (form.sequenceSets.length < 2 ^ 5 ∧ form.pictureSets.length < 2 ^ 8)
      ∧ ∀ unit ∈ form.sequenceSets ++ form.pictureSets, unit.length < 2 ^ 16 := by
  unfold DecoderConfigForm.read? at read
  split at read
  next version profile compatibility level sizeField countField data =>
    obtain ⟨⟨sequenceSets, behindSequence⟩, readSequence, read⟩ := Option.bind_eq_some_iff.1 read
    obtain ⟨pictureCount, -, read⟩ := Option.bind_eq_some_iff.1 read
    obtain ⟨⟨pictureSets, behindPicture⟩, readPicture, same⟩ := Option.bind_eq_some_iff.1 read
    cases same
    obtain ⟨sequenceCount, sequenceFit⟩ := fit_of_readUnits? readSequence
    obtain ⟨pictureCount, pictureFit⟩ := fit_of_readUnits? readPicture
    refine ⟨⟨?_, ?_⟩, List.forall_mem_append.2 ⟨sequenceFit, pictureFit⟩⟩
    · exact sequenceCount ▸ Nat.mod_lt _ (by decide)
    · exact pictureCount ▸ UInt8.toNat_lt _
  next => cases read

theorem read?_decoderConfig
    {sequenceSets pictureSets : List Bytes}
    (few : sequenceSets.length < 2 ^ 5 ∧ pictureSets.length < 2 ^ 8)
    (fit : ∀ unit ∈ sequenceSets ++ pictureSets, unit.length < 2 ^ 16) :
    DecoderConfigForm.read? (decoderConfig sequenceSets pictureSets)
      = some (.ofSets sequenceSets pictureSets, []) := by
  obtain ⟨sequenceFit, pictureFit⟩ := List.forall_mem_append.1 fit
  have sequenceCount :
      (UInt8.ofNat (0xE0 + sequenceSets.length % 32)).toNat % 2 ^ 5 = sequenceSets.length := by
    rw [UInt8.toNat_ofNat']
    omega
  have pictureCount : (UInt8.ofNat pictureSets.length).toNat = pictureSets.length := by
    rw [UInt8.toNat_ofNat', Nat.mod_eq_of_lt few.2]
  have readSequence :=
    readUnits?_flatMap_withLength
      (UInt8.ofNat pictureSets.length :: (pictureSets.flatMap (Bytes.withLength 2) ++ []))
      sequenceFit
  have readPicture := readUnits?_flatMap_withLength [] pictureFit
  simp only [decoderConfig, List.cons_append, List.nil_append, List.append_assoc,
    DecoderConfigForm.read?]
  rw [← List.append_nil (pictureSets.flatMap _), sequenceCount, readSequence]
  simp only [Option.bind_eq_bind, Option.bind_some, List.head?_cons, List.tail_cons, pictureCount,
    readPicture]
  rfl

/-- Of a picture parameter set that is too long, the record says the first bytes,
and the others are left over. -/
theorem read?_decoderConfig_singleton
    {sequenceSet : Bytes}
    (pictureSet : Bytes)
    (fits : sequenceSet.length < 2 ^ 16) :
    DecoderConfigForm.read? (decoderConfig [sequenceSet] [pictureSet])
      = some
          (.ofSets [sequenceSet] [pictureSet.take (pictureSet.length % 2 ^ 16)],
            pictureSet.drop (pictureSet.length % 2 ^ 16)) := by
  have readPicture := readUnit?_withLength pictureSet []
  rw [List.append_nil, List.append_nil] at readPicture
  simp [decoderConfig, DecoderConfigForm.read?, readUnits?, readUnit?_withLength_of_fits _ fits,
    readPicture, DecoderConfigForm.ofSets]

/-- A record says what it is meant to say exactly if its counts and lengths fit. -/
theorem read?_decoderConfig_iff (sequenceSets pictureSets : List Bytes) :
    DecoderConfigForm.read? (decoderConfig sequenceSets pictureSets)
        = some (.ofSets sequenceSets pictureSets, [])
      ↔ (sequenceSets.length < 2 ^ 5 ∧ pictureSets.length < 2 ^ 8)
          ∧ ∀ unit ∈ sequenceSets ++ pictureSets, unit.length < 2 ^ 16 :=
  ⟨fit_of_read?, fun ⟨few, fit⟩ => read?_decoderConfig few fit⟩

end MediaSplit.Avc
