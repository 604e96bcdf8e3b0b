import MediaSplit.Chain
import MediaSplit.ProgramStream.Pes

/-!
Contract: how far the header of a packet reaches.

Owns: `Pes.Extent.Reads`, where a chain of header fields comes to in a packet
of a known end, with one lemma for each chain; and from these what is read
where a header is accepted, and what is missing where data ends in a header.

The invariant of all chains is that the read position and the count of bytes
left add up to the end of the packet; each field keeps it on every branch.

A header can reach behind its own packet: the last byte of a packet can be the
first one of a timestamp, whose other four bytes then lie behind the packet. No
field reaches further. So a header that the data cuts off belongs to a packet
behind which there is no room for a start code.
-/

set_option autoImplicit false

namespace MediaSplit.ProgramStream

namespace Pes

/-- A packet, as its header fields see it. -/
structure Extent where
  source : Source
  /-- Where the start code stands. -/
  offset : Nat
  packetEnd : Nat

namespace Extent

/-- What a setback tells about the packet: data that ends in a header leaves
less than a start code behind the packet. -/
def Explains (extent : Extent) : Setback → Prop
  | .unusable => True
  | .failed error =>
      error = .scrambled extent.offset
        ∨ error = .source .endOfData ∧ extent.source.size < extent.packetEnd + 4

/-- From `position`, some fields come to where `ended` holds, or there is a
setback that the packet explains. Either way the bytes stay the same. -/
def Reads
    {α : Type}
    (extent : Extent)
    (fields : Fields α)
    (position : Nat)
    (ended : α → Nat → Prop) : Prop :=
  Chain.Ensures fields (extent.source.movedTo position)
    (fun setback after =>
      extent.Explains setback ∧ ∃ reached, after = extent.source.movedTo reached)
    (fun value after => ∃ reached, after = extent.source.movedTo reached ∧ ended value reached)

variable {extent : Extent} {α β : Type} {position : Nat}

theorem Reads.mono
    {fields : Fields α}
    {ended ended' : α → Nat → Prop}
    (reads : extent.Reads fields position ended)
    (weaker : ∀ value reached, ended value reached → ended' value reached) :
    extent.Reads fields position ended' := by
  apply Chain.Ensures.mono reads
  · intro _ _ explained
    exact explained
  · intro value after ended
    obtain ⟨reached, same, holds⟩ := ended
    exact ⟨reached, same, weaker value reached holds⟩

theorem Reads.pure
    {value : α}
    {ended : α → Nat → Prop}
    (holds : ended value position) :
    extent.Reads (Pure.pure value) position ended :=
  Chain.Ensures.pure ⟨position, rfl, holds⟩

theorem Reads.throw
    {setback : Setback}
    {ended : α → Nat → Prop}
    (explained : extent.Explains setback) :
    extent.Reads (MonadExcept.throw setback) position ended :=
  Chain.Ensures.throw ⟨explained, position, rfl⟩

theorem Reads.bind
    {fields : Fields α}
    {next : α → Fields β}
    {middle : α → Nat → Prop}
    {ended : β → Nat → Prop}
    (first : extent.Reads fields position middle)
    (second : ∀ value reached, middle value reached →
      extent.Reads (next value) reached ended) :
    extent.Reads (fields >>= next) position ended := by
  apply Chain.Ensures.bind first
  intro value after ended
  obtain ⟨reached, rfl, holds⟩ := ended
  exact second value reached holds

/-! ## Single requests -/

theorem reads_field
    {width : Nat}
    (positive : 0 < width)
    (reach : position + width ≤ extent.packetEnd + 4) :
    extent.Reads (field width) position fun _ reached => reached = position + width := by
  apply Chain.Ensures.adapt
  apply Chain.Ensures.mono (Chain.ensures_readNumber positive)
  · intro fault _ failed
    obtain ⟨rfl, short, rfl⟩ := failed
    rw [Source.size_movedTo, Source.position_movedTo] at short
    exact ⟨.inr ⟨rfl, Nat.lt_of_lt_of_le short reach⟩, extent.source.size, rfl⟩
  · intro value after ended
    obtain ⟨-, rfl⟩ := ended
    exact ⟨position + width, rfl, rfl⟩

theorem reads_pass (count : Nat) :
    extent.Reads (pass count) position fun _ reached => reached = position + count :=
  ⟨position + count, rfl, rfl⟩

theorem reads_expect (condition : Bool) :
    extent.Reads (expect condition) position fun _ reached =>
      condition = true ∧ reached = position := by
  unfold expect
  cases condition with
  | true => exact Reads.pure ⟨rfl, rfl⟩
  | false => exact Reads.throw trivial

/-! ## Requests in front of others -/

section Front

variable {ended : α → Nat → Prop}

theorem reads_field_bind
    {width : Nat}
    {next : Nat → Fields α}
    (positive : 0 < width)
    (reach : position + width ≤ extent.packetEnd + 4)
    (rest : ∀ value, extent.Reads (next value) (position + width) ended) :
    extent.Reads (field width >>= next) position ended := by
  apply (reads_field positive reach).bind
  intro value _ moved
  subst moved
  exact rest value

theorem reads_pass_bind
    {count : Nat}
    {next : PUnit → Fields α}
    (rest : extent.Reads (next ()) (position + count) ended) :
    extent.Reads (pass count >>= next) position ended := by
  apply (reads_pass count).bind
  intro _ _ moved
  subst moved
  exact rest

theorem reads_expect_bind
    {condition : Bool}
    {next : PUnit → Fields α}
    (rest : condition = true → extent.Reads (next ()) position ended) :
    extent.Reads (expect condition >>= next) position ended := by
  apply (reads_expect condition).bind
  intro _ _ met
  obtain ⟨holds, rfl⟩ := met
  exact rest holds

end Front

/-! ## Chains of fields -/

/-- Stuffing is read byte by byte. -/
theorem readPastStuffing_succ (left : Nat) :
    readPastStuffing (left + 1)
      = field 1 >>= fun byte =>
          if byte = 0xFF then readPastStuffing left else Pure.pure (byte, left) := by
  funext source
  rw [Chain.run_bind, readPastStuffing]
  dsimp only
  rcases field 1 source with ⟨setback | byte, after⟩
  · rfl
  · by_cases stuffing : byte = 0xFF
    · rw [stuffing]
      rfl
    · simp only [if_neg stuffing]
      rfl

/-- Fields that were read from `position` on have come to `reached`, where `left`
bytes of the packet are left; a negative count lies behind the packet. -/
structure Leaves (extent : Extent) (position : Nat) (left : Int) (reached : Nat) : Prop where
  ahead : position ≤ reached
  counts : (reached : Int) + left = extent.packetEnd

theorem reads_readPastStuffing
    {left : Nat}
    (counts : position + left = extent.packetEnd) :
    extent.Reads (readPastStuffing left) position fun answer reached =>
      extent.Leaves position answer.2 reached := by
  induction left generalizing position with
  | zero => exact Reads.pure ⟨Nat.le_refl _, by exact_mod_cast counts⟩
  | succ left inductionHypothesis =>
      rw [readPastStuffing_succ]
      apply reads_field_bind Nat.one_pos
      · omega
      intro byte
      by_cases stuffing : byte = 0xFF
      · rw [if_pos stuffing]
        have later : extent.Reads (readPastStuffing left) (position + 1) _ :=
          inductionHypothesis (by omega)
        apply later.mono
        intro answer reached leaves
        exact ⟨Nat.le_of_succ_le leaves.ahead, leaves.counts⟩
      · rw [if_neg stuffing]
        exact Reads.pure ⟨by omega, by dsimp only; omega⟩

theorem reads_readTimestamp
    (first : Nat)
    (inside : position ≤ extent.packetEnd) :
    extent.Reads (readTimestamp first) position fun _ reached => reached = position + 4 := by
  unfold readTimestamp
  apply reads_field_bind Nat.two_pos
  · omega
  intro middle
  apply reads_field_bind Nat.two_pos
  · omega
  intro last
  apply reads_expect_bind
  intro _
  exact Reads.pure rfl

theorem reads_readPastBufferSize
    {left : Int}
    (first : Nat)
    (counts : (position : Int) + left = extent.packetEnd)
    (nonneg : 0 ≤ left) :
    extent.Reads (readPastBufferSize left first) position fun answer reached =>
      extent.Leaves position answer.2 reached ∧ 0 ≤ answer.2 := by
  unfold readPastBufferSize
  by_cases hasSize : first / 64 = 1
  · rw [if_pos hasSize]
    apply reads_expect_bind
    intro enough
    have fits := of_decide_eq_true enough
    apply reads_pass_bind
    apply reads_field_bind Nat.one_pos
    · omega
    intro byte
    exact Reads.pure ⟨⟨by omega, by dsimp only; omega⟩, by dsimp only; omega⟩
  · rw [if_neg hasSize]
    exact Reads.pure ⟨⟨Nat.le_refl _, counts⟩, nonneg⟩

theorem reads_readAnnounced
    (isAnnounced : Bool)
    {headerLeft : Nat}
    (inside : position + headerLeft ≤ extent.packetEnd) :
    extent.Reads (readAnnounced isAnnounced headerLeft) position fun answer reached =>
      answer.2 ≤ headerLeft ∧ reached = position + answer.2 := by
  unfold readAnnounced
  cases isAnnounced with
  | false => exact Reads.pure ⟨Nat.zero_le _, rfl⟩
  | true =>
      apply reads_expect_bind
      intro enough
      have fits : 5 ≤ headerLeft := of_decide_eq_true enough
      apply reads_field_bind Nat.one_pos
      · omega
      intro first
      apply (reads_readTimestamp first _).bind
      · intro timestamp reached moved
        exact Reads.pure ⟨fits, moved⟩
      · omega

theorem reads_passAnnounced (isAnnounced : Bool) (headerLeft : Nat) :
    extent.Reads (passAnnounced isAnnounced headerLeft) position fun taken reached =>
      taken ≤ headerLeft ∧ reached = position + taken := by
  unfold passAnnounced
  cases isAnnounced with
  | false => exact Reads.pure ⟨Nat.zero_le _, rfl⟩
  | true =>
      apply reads_expect_bind
      intro enough
      apply reads_pass_bind
      exact Reads.pure ⟨of_decide_eq_true enough, rfl⟩

theorem reads_passInfo
    {left : Int}
    (subId : Nat)
    (counts : (position : Int) + left = extent.packetEnd) :
    extent.Reads (passInfo subId left) position fun rest reached =>
      extent.Leaves position rest reached := by
  unfold passInfo
  dsimp only
  split
  · apply reads_pass_bind
    split
    · apply reads_pass_bind
      exact Reads.pure ⟨by omega, by omega⟩
    · exact Reads.pure ⟨by omega, by omega⟩
  · exact Reads.pure ⟨Nat.le_refl _, counts⟩

theorem reads_readSubStream
    {left : Int}
    (counts : (position : Int) + left = extent.packetEnd) :
    extent.Reads (readSubStream left) position fun answer reached =>
      extent.Leaves position answer.2 reached := by
  unfold readSubStream
  apply reads_expect_bind
  intro enough
  have fits := of_decide_eq_true enough
  apply reads_field_bind Nat.one_pos
  · omega
  intro subId
  apply reads_expect_bind
  intro _
  apply (reads_passInfo subId (by omega)).bind
  intro rest reached leaves
  exact Reads.pure ⟨Nat.le_of_succ_le leaves.ahead, leaves.counts⟩

theorem reads_readSizedForm
    {left : Int}
    (id first : Nat)
    (counts : (position : Int) + left = extent.packetEnd)
    (nonneg : 0 ≤ left) :
    extent.Reads (readSizedForm id extent.offset left first) position
      fun reading reached => extent.Leaves position reading.left reached := by
  unfold readSizedForm
  dsimp only
  split
  · have scrambled : extent.Reads (MonadExcept.throw (.failed (.scrambled extent.offset))) position
        fun (_ : PUnit) _ => False :=
      Reads.throw (Or.inl rfl)
    apply scrambled.bind
    intro _ _ impossible
    exact impossible.elim
  apply reads_field_bind Nat.one_pos
  · omega
  intro flags
  apply reads_field_bind Nat.one_pos
  · omega
  intro headerSize
  apply reads_expect_bind
  intro enough
  have fits := of_decide_eq_true enough
  apply (reads_readAnnounced _ (by omega)).bind
  intro announced timed first
  obtain ⟨fitsFirst, rfl⟩ := first
  apply (reads_passAnnounced _ _).bind
  intro taken passed second
  obtain ⟨fitsSecond, rfl⟩ := second
  apply reads_pass_bind
  split
  · apply (reads_readSubStream (by omega)).bind
    intro answer reached leaves
    exact Reads.pure ⟨by have := leaves.ahead; omega, leaves.counts⟩
  · exact Reads.pure ⟨by omega, by dsimp only; omega⟩

theorem reads_readMarkedForm
    {left : Int}
    (id first : Nat)
    (counts : (position : Int) + left = extent.packetEnd)
    (nonneg : 0 ≤ left) :
    extent.Reads (readMarkedForm id extent.offset left first) position
      fun reading reached => extent.Leaves position reading.left reached := by
  unfold readMarkedForm
  split
  · apply (reads_readTimestamp _ (by omega)).bind
    intro timestamp reached moved
    exact Reads.pure ⟨by omega, by dsimp only; omega⟩
  · apply (reads_readTimestamp _ (by omega)).bind
    intro timestamp reached moved
    apply reads_pass_bind
    exact Reads.pure ⟨by omega, by dsimp only; omega⟩
  · split
    · exact reads_readSizedForm id first counts nonneg
    · apply reads_expect_bind
      intro _
      exact Reads.pure ⟨Nat.le_refl _, counts⟩

theorem reads_readForm
    (id : Nat)
    {left : Nat}
    (counts : position + left = extent.packetEnd) :
    extent.Reads (readForm id extent.offset left) position
      fun reading reached => extent.Leaves position reading.left reached := by
  unfold readForm
  apply (reads_readPastStuffing counts).bind
  intro unstuffed start leaves
  apply (reads_readPastBufferSize _ leaves.counts (Int.natCast_nonneg _)).bind
  intro sized reached behind
  obtain ⟨further, nonneg⟩ := behind
  apply (reads_readMarkedForm id _ further.counts nonneg).mono
  intro reading last latest
  exact ⟨Nat.le_trans leaves.ahead (Nat.le_trans further.ahead latest.ahead), latest.counts⟩

/-- What a header says that is accepted in a packet whose length field ends at
`position`: the payload is the last part of the packet, and not empty. -/
structure Accepts (extent : Extent) (id position : Nat) (header : PesHeader) (reached : Nat) :
    Prop where
  isParseable : StreamId.isParseable id = true
  streamId : header.streamId = id
  fullLength : position + header.fullLength = extent.packetEnd
  positive : 0 < header.payloadLength
  ahead : position ≤ reached
  payload : reached + header.payloadLength = extent.packetEnd

theorem reads_readHeader
    (id fullLength : Nat)
    (isEnd : extent.packetEnd = position + fullLength) :
    extent.Reads (readHeader id extent.offset fullLength) position
      (extent.Accepts id position) := by
  unfold readHeader
  apply reads_expect_bind
  intro usable
  rw [Bool.and_eq_true] at usable
  apply (reads_readForm id isEnd.symm).bind
  intro reading reached leaves
  have counts := leaves.counts
  apply reads_expect_bind
  intro nonempty
  have some := of_decide_eq_true nonempty
  apply Reads.pure
  constructor
  · exact usable.1
  · rfl
  · exact isEnd.symm
  · show 0 < reading.left.toNat
    omega
  · exact leaves.ahead
  · show reached + reading.left.toNat = extent.packetEnd
    omega

end Extent

/-- What is read of a packet whose length field is at the position. An accepted
header is followed by its payload, and data that ends leaves less than a start
code behind the packet. A rejected header can stop anywhere. -/
theorem ensures_readPes (source : Source) (id offset : Nat) :
    Chain.Ensures (readPes id offset) source
      (fun error _ =>
        error = .scrambled offset
          ∨ error = .source .endOfData ∧ ∀ fullLength,
              source.numberAt? source.position 2 = some fullLength →
                source.size < source.position + 2 + fullLength + 4)
      (fun content after =>
        ∃ fullLength reached, source.numberAt? source.position 2 = some fullLength
          ∧ after = source.movedTo reached
          ∧ (content = .rejected fullLength
            ∨ ∃ header, content = .payload header
                ∧ Extent.Accepts ⟨source, offset, source.position + 2 + fullLength⟩ id
                    (source.position + 2) header reached)) := by
  have length : Chain.Ensures (Source.readNumber 2) source _ _ :=
    Chain.ensures_readNumber Nat.two_pos
  unfold Chain.Ensures at length ⊢
  unfold readPes
  rcases answer : (Source.readNumber 2 source : Except SourceFault Nat × Source) with
    ⟨fault | fullLength, after⟩
  · rw [answer] at length
    obtain ⟨rfl, short, -⟩ := length
    refine .inr ⟨rfl, fun fullLength present => ?_⟩
    exact absurd (Source.le_size_of_numberAt? present) (Nat.not_le.2 short)
  · rw [answer] at length
    obtain ⟨present, rfl⟩ := length
    let extent : Extent := ⟨source, offset, source.position + 2 + fullLength⟩
    have header : extent.Reads (readHeader id offset fullLength) (source.position + 2) _ :=
      Extent.reads_readHeader id fullLength rfl
    unfold Extent.Reads Chain.Ensures at header
    dsimp only at header ⊢
    rcases read : readHeader id offset fullLength (source.movedTo (source.position + 2)) with
      ⟨setback | header', after⟩
    · rw [read] at header
      obtain ⟨explained, reached, moved⟩ := header
      cases setback with
      | unusable => exact ⟨fullLength, reached, present, moved, .inl rfl⟩
      | failed error =>
          rcases explained with scrambled | ⟨atEnd, short⟩
          · exact .inl scrambled
          · refine .inr ⟨atEnd, fun other same => ?_⟩
            rw [present] at same
            cases same
            exact short
    · rw [read] at header
      obtain ⟨reached, moved, accepts⟩ := header
      exact ⟨fullLength, reached, present, moved, .inr ⟨header', rfl, accepts⟩⟩

end Pes

end MediaSplit.ProgramStream
