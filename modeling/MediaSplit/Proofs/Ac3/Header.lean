import MediaSplit.Ac3.Search
import MediaSplit.Proofs.Bits.Extent
import MediaSplit.Proofs.Source

/-!
Contract: what can be relied on where an AC-3 header parses.

Owns: that the first eight bytes decide, because no field of either syntax
reaches behind them; that a header starts with the sync word; that its frame
has bytes and plays for a known time.

The sample rate of AC-3 is divided by a power of two that the bitstream id
gives. It stays positive because the id that chooses the syntax, a byte of the
header, is the id that the syntax reads back bit by bit.
-/

set_option autoImplicit false

namespace MediaSplit.Ac3

namespace Header

/-! ## The bytes that decide -/

theorem staysWithin_readCore : Bits.StaysWithin readCore 48 fun _ => True := by
  unfold readCore
  apply (Bits.staysWithin_skip 16).bind (by decide)
  intro _ _
  apply (Bits.staysWithin_readBits (by decide)).bind (by decide)
  intro sampleRateCode _
  apply (Bits.staysWithin_readBits (by decide)).bind (by decide)
  intro frameSizeCode _
  apply (Bits.staysWithin_readBits (by decide)).bind (by decide)
  intro bitstreamId _
  apply (Bits.staysWithin_skip 3).bind (by decide)
  intro _ _
  apply (Bits.staysWithin_readBits (by decide)).bind (by decide)
  intro codingMode _
  -- at most six bits of mix levels
  have mixes : Bits.StaysWithin
      (BitReader.skip ((if codingMode % 2 = 1 ∧ codingMode ≠ 1 then 2 else 0)
        + (if 4 ≤ codingMode then 2 else 0) + if codingMode = 2 then 2 else 0)) 6
      fun _ => True := by
    apply (Bits.staysWithin_skip _).mono
    split <;> split <;> split <;> omega
  apply mixes.bind (by decide)
  intro _ _
  apply Bits.staysWithin_readFlag.bind (by decide)
  intro hasLfe _
  exact Bits.staysWithin_pure trivial _

theorem staysWithin_readEnhanced :
    Bits.StaysWithin readEnhanced 48 fun fields =>
      fields.sampleRateCode < 4 ∧ fields.frameSizeCode < 2 ^ 11 := by
  unfold readEnhanced
  apply (Bits.staysWithin_readBits (by decide)).bind (by decide)
  intro streamType _
  apply (Bits.staysWithin_skip 3).bind (by decide)
  intro _ _
  apply (Bits.staysWithin_readBits (by decide)).bind (by decide)
  intro frameSizeCode sizeBelow
  apply (Bits.staysWithin_readBits (by decide)).bind (by decide)
  intro sampleRateCode rateBelow
  apply (Bits.staysWithin_readBits (by decide)).bind (by decide)
  intro secondCode _
  apply (Bits.staysWithin_readBits (by decide)).bind (by decide)
  intro codingMode _
  apply Bits.staysWithin_readFlag.bind (by decide)
  intro hasLfe _
  apply (Bits.staysWithin_readBits (by decide)).bind (by decide)
  intro bitstreamId _
  exact Bits.staysWithin_pure ⟨rateBelow, sizeBelow⟩ _

/-- Fields within the six bytes behind the sync word are there and stay the same
when more bytes come. -/
theorem exists_fieldsOf_append
    {α : Type}
    {fields : Bits.Parse α}
    {ended : α → Prop}
    (stays : Bits.StaysWithin fields 48 ended)
    {data : Bytes}
    (enough : headerSize ≤ data.length)
    (more : Bytes) :
    ∃ value, ended value
      ∧ fieldsOf fields data = .ok value
      ∧ fieldsOf fields (data ++ more) = .ok value := by
  have two : 2 ≤ data.length := Nat.le_trans (by decide) enough
  have six : 6 ≤ (data.drop 2).length := by
    rw [List.length_drop]
    exact Nat.le_sub_of_add_le enough
  obtain ⟨value, holds, alone, together⟩ := Bits.StaysWithin.exists_answer stays six more
  refine ⟨value, holds, ?_, ?_⟩
  · rw [fieldsOf, alone]
  · rw [fieldsOf, List.drop_append_of_le_length two, together]

theorem ofLeadingBytes_append
    {data : Bytes}
    (enough : headerSize ≤ data.length)
    (more : Bytes) :
    ofLeadingBytes (data ++ more) = ofLeadingBytes data := by
  have two : 2 ≤ data.length := Nat.le_trans (by decide) enough
  have sixth : (data ++ more).getD 5 0 = data.getD 5 0 := by
    have inside : 5 < data.length := Nat.lt_of_lt_of_le (by decide) enough
    rw [List.getD_eq_getElem?_getD, List.getD_eq_getElem?_getD, List.getElem?_append_left inside]
  obtain ⟨core, -, coreAlone, coreTogether⟩ :=
    exists_fieldsOf_append staysWithin_readCore enough more
  obtain ⟨enhanced, -, enhancedAlone, enhancedTogether⟩ :=
    exists_fieldsOf_append staysWithin_readEnhanced enough more
  rw [ofLeadingBytes, ofLeadingBytes, List.take_append_of_le_length two, sixth, coreAlone,
    coreTogether, enhancedAlone, enhancedTogether]

theorem parse_eq (data : Bytes) :
    parse data
      = if Bytes.hasAtLeast headerSize data then ofLeadingBytes (data.take headerSize)
        else .error (.insufficientData headerSize data.length) := by
  have sees : ∀ data, parse data
      = if Bytes.hasAtLeast headerSize data then ofLeadingBytes data
        else .error (.insufficientData headerSize data.length) :=
    fun _ => rfl
  exact Bytes.leads_of_append sees ofLeadingBytes_append data

/-- Eight bytes are the same header whatever stands behind them. -/
theorem parse_append {data : Bytes} (enough : headerSize ≤ data.length) (more : Bytes) :
    parse (data ++ more) = parse data :=
  Bytes.append_of_leading parse_eq enough more

theorem decidedBy_parse? : Bytes.DecidedBy headerSize parse? :=
  Bytes.decidedBy_of_leading parse_eq

theorem ofLeadingBytes_of_parse? {data : Bytes} {header : Header}
    (found : parse? data = some header) :
    headerSize ≤ data.length ∧ ofLeadingBytes (data.take headerSize) = .ok header :=
  Bytes.ofLeading_of_toOption parse_eq found

theorem startsWithSync_iff (data : Bytes) :
    startsWithSync data = true ↔ data.take 2 = Bytes.ofNumber 2 syncWord := by
  unfold startsWithSync
  split
  next rest => simp [Bytes.ofNumber, syncWord]
  next other =>
    constructor
    · intro never
      cases never
    · intro spelled
      have joined := List.take_append_drop 2 data
      rw [spelled] at joined
      exact (other _ joined.symm).elim

/-- A header starts with the sync word. -/
theorem startsWithSync_of_parse? {data : Bytes} {header : Header}
    (found : parse? data = some header) :
    startsWithSync data = true := by
  obtain ⟨enough, outcome⟩ := ofLeadingBytes_of_parse? found
  have length : ((data.take headerSize).take 2).length = 2 := by
    rw [List.take_take, List.length_take]
    exact Nat.min_eq_left (Nat.le_trans (by decide) enough)
  simp only [ofLeadingBytes] at outcome
  split at outcome
  next => cases outcome
  next sync =>
    have spelled := Bytes.eq_ofNumber length (Decidable.not_not.1 sync)
    rw [List.take_take] at spelled
    rw [startsWithSync_iff]
    exact spelled

/-! ## The fields -/

theorem ensures_readCore {reader : BitReader} (enough : 48 ≤ reader.remainingBits) :
    Chain.Ensures readCore reader (fun _ _ => False) fun fields _ =>
      fields.bitstreamId = (((reader.advance 16).advance 2).advance 6).fieldAhead 5 := by
  unfold readCore
  apply Chain.ensures_skip_bind (by omega)
  apply Chain.ensures_readBits_bind (by decide)
  · simp
    omega
  intro sampleRateCode _
  apply Chain.ensures_readBits_bind (by decide)
  · simp
    omega
  intro frameSizeCode _
  apply Chain.ensures_readBits_bind (by decide)
  · simp
    omega
  intro bitstreamId isId
  apply Chain.ensures_skip_bind
  · simp
    omega
  apply Chain.ensures_readBits_bind (by decide)
  · simp
    omega
  intro codingMode _
  -- at most six bits of mix levels
  apply Chain.ensures_skip_bind
  · simp
    split <;> split <;> split <;> omega
  apply Chain.ensures_readFlag_bind
  · simp
    split <;> split <;> split <;> omega
  intro hasLfe
  exact Chain.Ensures.pure isId

/-- Fields that cannot fail are there, with all that is ensured of them. -/
theorem fieldsOf_of_ensures
    {α : Type}
    {fields : Bits.Parse α}
    (ended : α → Prop)
    {header : Bytes}
    {value : α}
    (ensures : Chain.Ensures fields (BitReader.ofBytes (header.drop 2)) (fun _ _ => False)
      fun value _ => ended value)
    (found : fieldsOf fields header = .ok value) :
    ended value := by
  unfold fieldsOf at found
  unfold Chain.Ensures at ensures
  rcases outcome : fields (BitReader.ofBytes (header.drop 2)) with ⟨error | value', after⟩
  · rw [outcome] at ensures
    exact ensures.elim
  · rw [outcome] at found ensures
    cases found
    exact ensures

/-- The bits of the bitstream id are those of the sixth byte. -/
theorem fieldAhead_bitstreamId {header : Bytes} (length : header.length = 8) :
    ((((BitReader.ofBytes (header.drop 2)).advance 16).advance 2).advance 6).fieldAhead 5
      = (header.getD 5 0).toNat / 8 := by
  match header, length with
  | [_, _, _, _, _, byte, _, _], _ =>
      have below := byte.toNat_lt
      simp [BitReader.fieldAhead, BitReader.ofBytes, BitReader.advance, BitReader.gather]
      omega

/-! ## What the fields stand for -/

theorem ofCore_ne_bits (fields : CoreFields) (error : Bits.Error) :
    ofCore fields ≠ .error (.bits error) := by
  intro refused
  unfold ofCore at refused
  split at refused
  · cases refused
  · split at refused <;> cases refused

theorem ofEnhanced_ne_bits (fields : EnhancedFields) (error : Bits.Error) :
    ofEnhanced fields ≠ .error (.bits error) := by
  intro refused
  unfold ofEnhanced enhancedTiming at refused
  split at refused
  · cases refused
  · split at refused
    · split at refused <;> cases refused
    · cases refused

/-- Eight bytes hold every field of either syntax. -/
theorem parse_ne_bits {data : Bytes} (enough : headerSize ≤ data.length) (error : Bits.Error) :
    parse data ≠ .error (.bits error) := by
  obtain ⟨core, -, isCore, -⟩ := exists_fieldsOf_append staysWithin_readCore enough []
  obtain ⟨enhanced, -, isEnhanced, -⟩ := exists_fieldsOf_append staysWithin_readEnhanced enough []
  intro refused
  rw [parse, if_pos ((Bytes.hasAtLeast_iff _ _).2 enough), ofLeadingBytes, isCore,
    isEnhanced] at refused
  dsimp only at refused
  split at refused
  · cases refused
  · split at refused
    · exact ofCore_ne_bits core error refused
    · split at refused
      · exact ofEnhanced_ne_bits enhanced error refused
      · cases refused

theorem frameWords_bounds (sampleRateCode : Nat) {frameSizeCode : Nat} (below : frameSizeCode < 38) :
    0 < frameWords sampleRateCode frameSizeCode
      ∧ frameWords sampleRateCode frameSizeCode ≤ 1920 := by
  have index : frameSizeCode / 2 < 19 := by omega
  have isOdd := Nat.mod_lt frameSizeCode Nat.two_pos
  unfold frameWords
  generalize frameSizeCode / 2 = place at index
  have at48 : ∀ place < 19, 0 < frameWords48.getD place 0 ∧ frameWords48.getD place 0 ≤ 1920 := by
    decide
  have at44 : ∀ place < 19, 0 < frameWords44.getD place 0 ∧ frameWords44.getD place 0 ≤ 1393 := by
    decide
  have at32 : ∀ place < 19, 0 < frameWords32.getD place 0 ∧ frameWords32.getD place 0 ≤ 1920 := by
    decide
  match sampleRateCode with
  | 0 => exact at48 place index
  | 1 =>
      obtain ⟨positive, most⟩ := at44 place index
      have longest := Nat.add_le_add most (Nat.le_of_lt_succ isOdd)
      exact ⟨Nat.add_pos_left positive _, Nat.le_trans longest (by decide)⟩
  | _ + 2 => exact at32 place index

/-- Whether a header says what every frame has. -/
structure IsPlayable (header : Header) : Prop where
  frameSize : 0 < header.frameSize
  frameSize_le : header.frameSize ≤ 4096
  sampleRate : 0 < header.sampleRate

theorem isPlayable_of_ofCore {fields : CoreFields} {header : Header}
    (found : ofCore fields = .ok header)
    (idBelow : fields.bitstreamId ≤ 10) :
    header.IsPlayable := by
  unfold ofCore at found
  split at found
  · cases found
  · split at found
    · cases found
    · rename_i rateBelow sizeBelow
      cases found
      have rates : ∀ code < 3, ∀ id ≤ 10, 0 < sampleRates.getD code 0 / 2 ^ (id - 8) := by decide
      have words := frameWords_bounds fields.sampleRateCode (Nat.lt_of_not_le sizeBelow)
      constructor
      · dsimp only
        omega
      · dsimp only
        omega
      · exact rates _ (by omega) _ idBelow

theorem isPlayable_of_ofEnhanced {fields : EnhancedFields} {header : Header}
    (found : ofEnhanced fields = .ok header)
    (rateBelow : fields.sampleRateCode < 4)
    (sizeBelow : fields.frameSizeCode < 2 ^ 11) :
    header.IsPlayable := by
  unfold ofEnhanced at found
  split at found
  · cases found
  · cases timing : enhancedTiming fields with
    | error error =>
        rw [timing] at found
        cases found
    | ok values =>
        obtain ⟨rate, blocks⟩ := values
        have positive : 0 < rate := by
          unfold enhancedTiming at timing
          split at timing
          · split at timing
            · rename_i reduced isReduced
              cases timing
              have all : ∀ rate ∈ reducedSampleRates, 0 < rate := by decide
              exact all _ (List.mem_of_getElem? isReduced)
            · cases timing
          · rename_i isPlain
            cases timing
            have all : ∀ code < 3, 0 < sampleRates.getD code 0 := by decide
            exact all _ (by omega)
        rw [timing] at found
        cases found
        constructor
        · exact Nat.mul_pos (Nat.succ_pos _) (by decide)
        · exact Nat.mul_le_mul_right 2 sizeBelow
        · exact positive

/-- A header that parses says what every frame has. -/
theorem isPlayable_of_parse? {data : Bytes} {header : Header}
    (found : parse? data = some header) :
    header.IsPlayable := by
  obtain ⟨enough, outcome⟩ := ofLeadingBytes_of_parse? found
  have length : (data.take headerSize).length = 8 := by
    rw [List.length_take, Nat.min_eq_left enough]
    rfl
  have bits : 48 ≤ (BitReader.ofBytes ((data.take headerSize).drop 2)).remainingBits := by
    simp only [BitReader.remainingBits, BitReader.ofBytes, List.length_drop, length]
    omega
  simp only [ofLeadingBytes] at outcome
  split at outcome
  · cases outcome
  · split at outcome
    · rename_i core
      cases fields : fieldsOf readCore (data.take headerSize) with
      | error error =>
          rw [fields] at outcome
          cases outcome
      | ok value =>
          rw [fields] at outcome
          have id := fieldsOf_of_ensures _ (ensures_readCore bits) fields
          rw [fieldAhead_bitstreamId length] at id
          exact isPlayable_of_ofCore outcome (id ▸ core)
    · split at outcome
      · obtain ⟨value, ⟨rate, size⟩, fields, -⟩ :=
          exists_fieldsOf_append staysWithin_readEnhanced (Nat.le_of_eq length.symm) []
        rw [fields] at outcome
        exact isPlayable_of_ofEnhanced outcome rate size
      · cases outcome

theorem IsPlayable.isSome_duration {header : Header} (playable : header.IsPlayable) :
    header.duration.isSome = true := by
  unfold duration Time.ofSamples?
  rw [if_neg (Nat.ne_of_gt playable.sampleRate)]
  rfl

end Header

end MediaSplit.Ac3
