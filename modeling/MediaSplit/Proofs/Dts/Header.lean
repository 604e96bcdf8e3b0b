import MediaSplit.Dts.Search
import MediaSplit.Proofs.Bits.Extent
import MediaSplit.Proofs.Bytes

/-!
Contract: what can be relied on where a DTS header parses.

Owns: that the first sixteen bytes decide, because no field reaches behind
them; that a header starts with a sync word; that its frame has bytes and plays
for a known time; that twelve bytes tell the size of a substream; and that a
length once told stays the same when more bytes come.
-/

set_option autoImplicit false

namespace MediaSplit.Dts

namespace Header

/-! ## The bytes that decide -/

theorem staysWithin_readFields :
    Bits.StaysWithin readFields 96 (·.frameSizeField < 2 ^ 14) := by
  unfold readFields
  apply Bits.staysWithin_readFlag.bind (by decide)
  intro isNormal _
  apply (Bits.staysWithin_skip 5).bind (by decide)
  intro _ _
  apply Bits.staysWithin_readFlag.bind (by decide)
  intro hasCheckWord _
  apply (Bits.staysWithin_readBits (by decide)).bind (by decide)
  intro blockField _
  apply (Bits.staysWithin_readBits (by decide)).bind (by decide)
  intro frameSizeField below
  apply (Bits.staysWithin_readBits (by decide)).bind (by decide)
  intro arrangement _
  apply (Bits.staysWithin_readBits (by decide)).bind (by decide)
  intro sampleRateCode _
  apply (Bits.staysWithin_readBits (by decide)).bind (by decide)
  intro rateCode _
  apply (Bits.staysWithin_skip 8).bind (by decide)
  intro _ _
  apply Bits.staysWithin_readFlag.bind (by decide)
  intro hasExtension _
  apply (Bits.staysWithin_skip 1).bind (by decide)
  intro _ _
  apply (Bits.staysWithin_readBits (by decide)).bind (by decide)
  intro lfeCode _
  -- the check word, where there is one
  have checkWord : Bits.StaysWithin (BitReader.skip (if hasCheckWord then 17 else 1)) 17
      fun _ => True := by
    apply (Bits.staysWithin_skip _).mono
    split <;> decide
  apply checkWord.bind (by decide)
  intro _ _
  apply (Bits.staysWithin_skip 7).bind (by decide)
  intro _ _
  apply (Bits.staysWithin_readBits (by decide)).bind (by decide)
  intro resolutionCode _
  apply Bits.staysWithin_pure
  exact below

/-- The fields are within the twelve bytes behind the sync word and stay the same
when more bytes come. -/
theorem exists_readFields_append
    {data : Bytes}
    (enough : headerSize ≤ data.length)
    (more : Bytes) :
    ∃ fields : Fields, fields.frameSizeField < 2 ^ 14
      ∧ (readFields (BitReader.ofBytes (data.drop 4))).1 = .ok fields
      ∧ (readFields (BitReader.ofBytes ((data ++ more).drop 4))).1 = .ok fields := by
  have four : 4 ≤ data.length := Nat.le_trans (by decide) enough
  have twelve : 12 ≤ (data.drop 4).length := by
    rw [List.length_drop]
    exact Nat.le_sub_of_add_le enough
  rw [List.drop_append_of_le_length four]
  exact Bits.StaysWithin.exists_answer staysWithin_readFields twelve more

theorem ofLeadingBytes_append
    {data : Bytes}
    (enough : headerSize ≤ data.length)
    (more : Bytes) :
    ofLeadingBytes (data ++ more) = ofLeadingBytes data := by
  have four : 4 ≤ data.length := Nat.le_trans (by decide) enough
  obtain ⟨fields, -, alone, together⟩ := exists_readFields_append enough more
  rw [ofLeadingBytes, ofLeadingBytes, List.take_append_of_le_length four, alone, together]

theorem parse_eq (data : Bytes) :
    parse data
      = if Bytes.hasAtLeast headerSize data then ofLeadingBytes (data.take headerSize)
        else .error (.insufficientData headerSize data.length) := by
  have sees : ∀ data, parse data
      = if Bytes.hasAtLeast headerSize data then ofLeadingBytes data
        else .error (.insufficientData headerSize data.length) :=
    fun _ => rfl
  exact Bytes.leads_of_append sees ofLeadingBytes_append data

/-- Sixteen bytes are the same header whatever stands behind them. -/
theorem parse_append {data : Bytes} (enough : headerSize ≤ data.length) (more : Bytes) :
    parse (data ++ more) = parse data :=
  Bytes.append_of_leading parse_eq enough more

theorem decidedBy_parse? : Bytes.DecidedBy headerSize parse? :=
  Bytes.decidedBy_of_leading parse_eq

theorem ofLeadingBytes_of_parse? {data : Bytes} {header : Header}
    (found : parse? data = some header) :
    headerSize ≤ data.length ∧ ofLeadingBytes (data.take headerSize) = .ok header :=
  Bytes.ofLeading_of_toOption parse_eq found

theorem startsWithSync_iff (data : Bytes) :
    startsWithSync data = true
      ↔ data.take 4 ∈ [Bytes.ofNumber 4 coreSync, Bytes.ofNumber 4 substreamSync] := by
  unfold startsWithSync
  split
  next rest => simp [Bytes.ofNumber, coreSync]
  next rest => simp [Bytes.ofNumber, substreamSync]
  next notCore notSubstream =>
    constructor
    · intro never
      cases never
    · intro spelled
      have joined := List.take_append_drop 4 data
      rw [List.mem_cons, List.mem_singleton] at spelled
      rcases spelled with core | substream
      · rw [core] at joined
        exact (notCore _ joined.symm).elim
      · rw [substream] at joined
        exact (notSubstream _ joined.symm).elim

/-- A header starts with the sync word of a core frame. -/
theorem startsWithSync_of_parse? {data : Bytes} {header : Header}
    (found : parse? data = some header) :
    startsWithSync data = true := by
  obtain ⟨enough, outcome⟩ := ofLeadingBytes_of_parse? found
  have length : ((data.take headerSize).take 4).length = 4 := by
    rw [List.take_take, List.length_take]
    exact Nat.min_eq_left (Nat.le_trans (by decide) enough)
  simp only [ofLeadingBytes] at outcome
  split at outcome
  next => cases outcome
  next sync =>
    have spelled := Bytes.eq_ofNumber length (Decidable.not_not.1 sync)
    rw [List.take_take] at spelled
    rw [startsWithSync_iff, List.mem_cons]
    exact .inl spelled

/-! ## What the fields stand for -/

/-- Whether a header says what every frame has. -/
structure IsPlayable (header : Header) : Prop where
  frameSize : 0 < header.frameSize
  sampleRate : 0 < header.sampleRate

/-- What fields come to: a header, or the one thing they say that no header says. -/
theorem ofFields_cases
    {fields : Fields}
    {outcome : Except Error Header}
    (spelled : ofFields fields = outcome) :
    (∃ reason, outcome = .error (.invalidHeader reason))
      ∨ (∃ code, outcome = .error (.unsupportedSampleRate code))
      ∨ ∃ header, outcome = .ok header
          ∧ leastFrameSizeField ≤ fields.frameSizeField
          ∧ header.frameSize = fields.frameSizeField + 1
          ∧ 0 < header.sampleRate := by
  simp only [ofFields] at spelled
  split at spelled
  next => exact .inl ⟨_, spelled.symm⟩
  next =>
    split at spelled
    next => exact .inl ⟨_, spelled.symm⟩
    next =>
      split at spelled
      next => exact .inl ⟨_, spelled.symm⟩
      next enough =>
        split at spelled
        next => exact .inr (.inl ⟨_, spelled.symm⟩)
        next rate =>
          split at spelled
          next => exact .inl ⟨_, spelled.symm⟩
          next =>
            exact .inr (.inr ⟨_, spelled.symm, Nat.le_of_not_lt enough, rfl,
              Nat.pos_of_ne_zero rate⟩)

theorem cause_of_ofFields {fields : Fields} {error : Error}
    (refused : ofFields fields = .error error) :
    (∃ reason, error = .invalidHeader reason) ∨ ∃ code, error = .unsupportedSampleRate code := by
  rcases ofFields_cases refused with ⟨reason, cause⟩ | ⟨code, cause⟩ | ⟨header, found, -⟩
  · exact .inl ⟨reason, Except.error.inj cause⟩
  · exact .inr ⟨code, Except.error.inj cause⟩
  · cases found

theorem frameSize_of_ofFields {fields : Fields} {header : Header}
    (found : ofFields fields = .ok header) :
    leastFrameSizeField ≤ fields.frameSizeField
      ∧ header.frameSize = fields.frameSizeField + 1 := by
  rcases ofFields_cases found with ⟨_, other⟩ | ⟨_, other⟩ | ⟨_, same, least, isNext, -⟩
  · cases other
  · cases other
  · cases same
    exact ⟨least, isNext⟩

/-- What sixteen bytes come to: their fields, unless they do not start with the
sync word. -/
theorem exists_fields_of_parse {data : Bytes} (enough : headerSize ≤ data.length) :
    (∃ found, parse data = .error (.invalidSyncWord found))
      ∨ ∃ fields : Fields, fields.frameSizeField < 2 ^ 14 ∧ parse data = ofFields fields := by
  obtain ⟨fields, below, read, -⟩ := exists_readFields_append enough []
  rw [parse, if_pos ((Bytes.hasAtLeast_iff _ _).2 enough), ofLeadingBytes, read]
  dsimp only
  split
  · exact .inl ⟨_, rfl⟩
  · exact .inr ⟨fields, below, rfl⟩

theorem isPlayable_of_ofFields {fields : Fields} {header : Header}
    (found : ofFields fields = .ok header) :
    header.IsPlayable := by
  rcases ofFields_cases found with ⟨_, other⟩ | ⟨_, other⟩ | ⟨_, same, -, isNext, rate⟩
  · cases other
  · cases other
  · cases same
    exact ⟨isNext ▸ Nat.succ_pos _, rate⟩

/-- A header that parses says what every frame has. -/
theorem isPlayable_of_parse? {data : Bytes} {header : Header}
    (found : parse? data = some header) :
    header.IsPlayable := by
  obtain ⟨-, outcome⟩ := ofLeadingBytes_of_parse? found
  simp only [ofLeadingBytes] at outcome
  split at outcome
  · cases outcome
  · split at outcome
    · exact isPlayable_of_ofFields outcome
    · cases outcome

theorem IsPlayable.isSome_duration {header : Header} (playable : header.IsPlayable) :
    header.duration.isSome = true := by
  unfold duration Time.ofSamples?
  rw [if_neg (Nat.ne_of_gt playable.sampleRate)]
  rfl

end Header

/-! ## The length of a frame -/

theorem staysWithin_readSubstreamSize :
    Bits.StaysWithin readSubstreamSize 64 (· ≤ 2 ^ 20) := by
  unfold readSubstreamSize
  apply (Bits.staysWithin_skip 10).bind (by decide)
  intro _ _
  apply Bits.staysWithin_readFlag.bind (by decide)
  intro isWide _
  -- both length fields are wide, or neither is
  have header : Bits.StaysWithin (BitReader.skip (if isWide then 12 else 8)) 12
      fun _ => True := by
    apply (Bits.staysWithin_skip _).mono
    split <;> decide
  apply header.bind (by decide)
  intro _ _
  have size : Bits.StaysWithin (BitReader.readBits (if isWide then 20 else 16)) 20
      (· < 2 ^ if isWide then 20 else 16) := by
    apply (Bits.staysWithin_readBits _).mono
    all_goals split <;> decide
  apply size.bind (by decide)
  intro size below
  apply Bits.staysWithin_pure
  apply Nat.lt_of_lt_of_le below
  split <;> decide

/-- Twelve bytes that start with the sync word of a substream tell its size, and
the size stays the same when more bytes come. -/
theorem exists_substreamSize?_append
    {data : Bytes}
    (enough : substreamHeaderSize ≤ data.length)
    (sync : Bytes.toNumber (data.take 4) = substreamSync)
    (more : Bytes) :
    ∃ size ≤ 2 ^ 20, substreamSize? data = some size
      ∧ substreamSize? (data ++ more) = some size := by
  have four : 4 ≤ data.length := Nat.le_trans (by decide) enough
  have eight : 8 ≤ (data.drop 4).length := by
    rw [List.length_drop]
    exact Nat.le_sub_of_add_le enough
  have here : Bytes.hasAtLeast substreamHeaderSize data = true :=
    (Bytes.hasAtLeast_iff _ _).2 enough
  have later : Bytes.hasAtLeast substreamHeaderSize (data ++ more) = true := by
    rw [Bytes.hasAtLeast_iff, List.length_append]
    omega
  obtain ⟨size, most, alone, together⟩ :=
    Bits.StaysWithin.exists_answer staysWithin_readSubstreamSize eight more
  refine ⟨size, most, ?_, ?_⟩
  · rw [substreamSize?, here, sync, alone]
    rfl
  · rw [substreamSize?, later, List.take_append_of_le_length four, sync,
      List.drop_append_of_le_length four, together]
    rfl

/-- A size is told by twelve bytes that start with the sync word of a substream. -/
theorem sync_of_substreamSize?
    {data : Bytes}
    {size : Nat}
    (told : substreamSize? data = some size) :
    substreamHeaderSize ≤ data.length ∧ Bytes.toNumber (data.take 4) = substreamSync := by
  unfold substreamSize? at told
  split at told
  next => cases told
  next enough =>
    split at told
    next => cases told
    next sync =>
      simp only [Bool.not_eq_true', Bool.not_eq_false] at enough
      exact ⟨(Bytes.hasAtLeast_iff _ _).1 enough, Decidable.not_not.1 sync⟩

theorem substreamSize?_append
    {data : Bytes}
    {size : Nat}
    (told : substreamSize? data = some size)
    (more : Bytes) :
    substreamSize? (data ++ more) = some size := by
  obtain ⟨enough, sync⟩ := sync_of_substreamSize? told
  obtain ⟨same, -, isSame, later⟩ := exists_substreamSize?_append enough sync more
  rw [later, ← isSame, told]

theorem le_of_substreamSize?
    {data : Bytes}
    {size : Nat}
    (told : substreamSize? data = some size) :
    size ≤ 2 ^ 20 := by
  obtain ⟨enough, sync⟩ := sync_of_substreamSize? told
  obtain ⟨same, most, isSame, -⟩ := exists_substreamSize?_append enough sync []
  obtain rfl := Option.some.inj (told.symm.trans isSame)
  exact most

section FrameLength

variable {header : Header} {data : Bytes}

theorem Header.frameLength?_of_short (short : data.length < header.frameSize + 4) :
    header.frameLength? data = none := by
  have missing : Bytes.hasAtLeast 4 (data.drop header.frameSize) = false := by
    rw [Bool.eq_false_iff, Ne, Bytes.hasAtLeast_iff, List.length_drop]
    omega
  rw [frameLength?, missing]
  rfl

theorem Header.frameLength?_of_plain
    (enough : header.frameSize + 4 ≤ data.length)
    (plain : ¬ Bytes.ofNumber 4 substreamSync <+: data.drop header.frameSize) :
    header.frameLength? data = some header.frameSize := by
  have four : 4 ≤ (data.drop header.frameSize).length := by
    rw [List.length_drop]
    omega
  have other : Bytes.toNumber ((data.drop header.frameSize).take 4) ≠ substreamSync :=
    mt (Bytes.toNumber_take_eq_iff (show substreamSync < 256 ^ 4 by decide) four).1 plain
  rw [frameLength?, (Bytes.hasAtLeast_iff _ _).2 four]
  exact if_pos other

theorem Header.frameLength?_of_substream
    (sync : Bytes.ofNumber 4 substreamSync <+: data.drop header.frameSize) :
    header.frameLength? data
      = (substreamSize? (data.drop header.frameSize)).map (header.frameSize + ·) := by
  have four : 4 ≤ (data.drop header.frameSize).length := sync.length_le
  have spells := (Bytes.toNumber_take_eq_iff (show substreamSync < 256 ^ 4 by decide) four).2 sync
  rw [frameLength?, (Bytes.hasAtLeast_iff _ _).2 four, spells]
  rfl

theorem substreamSize?_eq_none_iff (sync : Bytes.ofNumber 4 substreamSync <+: data) :
    substreamSize? data = none ↔ data.length < substreamHeaderSize := by
  constructor
  · intro untold
    apply Nat.lt_of_not_le
    intro enough
    have spells := Bytes.toNumber_take_eq_iff (show substreamSync < 256 ^ 4 by decide)
      (sync.length_le : 4 ≤ data.length)
    obtain ⟨size, -, told, -⟩ :=
      exists_substreamSize?_append enough (spells.2 sync) []
    rw [untold] at told
    cases told
  · intro short
    have missing : Bytes.hasAtLeast substreamHeaderSize data = false := by
      rw [Bool.eq_false_iff, Ne, Bytes.hasAtLeast_iff]
      exact Nat.not_le.2 short
    rw [substreamSize?, missing]
    rfl

/-- A length stays open just where too few bytes follow the core to see a sync word,
or too few follow from the sync word of a substream on. -/
theorem Header.frameLength?_eq_none_iff (header : Header) (data : Bytes) :
    header.frameLength? data = none
      ↔ data.length < header.frameSize + 4
        ∨ Bytes.ofNumber 4 substreamSync <+: data.drop header.frameSize
          ∧ data.length < header.frameSize + substreamHeaderSize := by
  by_cases short : data.length < header.frameSize + 4
  · exact ⟨fun _ => .inl short, fun _ => frameLength?_of_short short⟩
  by_cases sync : Bytes.ofNumber 4 substreamSync <+: data.drop header.frameSize
  · have behind : (data.drop header.frameSize).length < substreamHeaderSize
        ↔ data.length < header.frameSize + substreamHeaderSize := by
      rw [List.length_drop]
      omega
    rw [frameLength?_of_substream sync, Option.map_eq_none_iff, substreamSize?_eq_none_iff sync,
      behind]
    exact ⟨fun few => .inr ⟨sync, few⟩, fun either => (either.resolve_left short).2⟩
  · rw [frameLength?_of_plain (Nat.le_of_not_lt short) sync]
    constructor
    · intro none
      cases none
    · rintro (tooFew | ⟨other, -⟩)
      · exact absurd tooFew short
      · exact absurd other sync

end FrameLength

/-- A length that can be told stays the same when more bytes come. -/
theorem Header.frameLength?_append
    {header : Header}
    {data : Bytes}
    {length : Nat}
    (told : header.frameLength? data = some length)
    (more : Bytes) :
    header.frameLength? (data ++ more) = some length := by
  simp only [frameLength?] at told ⊢
  split at told
  next => cases told
  next enough =>
    simp only [Bool.not_eq_true', Bool.not_eq_false] at enough
    have four := (Bytes.hasAtLeast_iff _ _).1 enough
    have reaches : header.frameSize ≤ data.length := by
      rw [List.length_drop] at four
      omega
    have enoughLater : Bytes.hasAtLeast 4 (data.drop header.frameSize ++ more) = true := by
      rw [Bytes.hasAtLeast_iff, List.length_append]
      omega
    rw [List.drop_append_of_le_length reaches, enoughLater,
      List.take_append_of_le_length four]
    split at told
    next noSubstream =>
      rw [if_pos noSubstream]
      exact told
    next substream =>
      rw [if_neg substream]
      obtain ⟨size, isSize, rfl⟩ := Option.map_eq_some_iff.1 told
      rw [substreamSize?_append isSize]
      rfl

/-- A frame that can be told is no shorter than its core, and longer by no more than
the longest substream. -/
theorem Header.bounds_of_frameLength?
    {header : Header}
    {data : Bytes}
    {length : Nat}
    (told : header.frameLength? data = some length) :
    header.frameSize ≤ length ∧ length ≤ header.frameSize + 2 ^ 20 := by
  simp only [frameLength?] at told
  split at told
  next => cases told
  next =>
    split at told
    next =>
      cases told
      exact ⟨Nat.le_refl _, Nat.le_add_right _ _⟩
    next =>
      obtain ⟨size, isSize, rfl⟩ := Option.map_eq_some_iff.1 told
      exact ⟨Nat.le_add_right _ _, Nat.add_le_add_left (le_of_substreamSize? isSize) _⟩

end MediaSplit.Dts
