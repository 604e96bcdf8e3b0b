import MediaSplit.ProgramStream.Pes.Extent
import MediaSplit.ProgramStream.Pes.Form
import MediaSplit.Proofs.Source

/-!
Contract: headers of PES packets read back as they were written.

Owns: `Pes.Parses`, that some written bytes are read to a value wherever they
stand, with a rule for each way in which fields are put together and a lemma
for each part of a header; and from these that `readPes` undoes `writePes`.

Does **not** own: what is read of bytes that no form stands for.

A header is read without regard to the position at which it stands, and the
bytes left of its packet are counted from the length field on. So each part is
read on its own, with any number of bytes left behind it.
-/

set_option autoImplicit false

namespace MediaSplit.ProgramStream

namespace Pes

/-- Wherever `written` stands, the fields are read to `value`, and the source is
left behind it. -/
def Parses {α : Type} (fields : Fields α) (written : Bytes) (value : α) : Prop :=
  ∀ (source : Source) (rest : Bytes), source.toBytes.drop source.position = written ++ rest →
    fields source = (.ok value, source.movedTo (source.position + written.length))

/-! ## Single requests -/

section Requests

variable {α β : Type} {next : α → Fields β} {written more : Bytes} {value : β}

theorem parses_pure (value : β) : Parses (pure value) [] value := fun _ _ _ => rfl

theorem Parses.bind
    {fields : Fields α}
    {first : α}
    (parses : Parses fields written first)
    (further : Parses (next first) more value) :
    Parses (fields >>= next) (written ++ more) value := by
  intro source rest stands
  rw [List.append_assoc] at stands
  have behind := Source.drop_of_drop stands
  rw [Chain.run_bind, parses source _ stands]
  dsimp only
  rw [further (source.movedTo (source.position + written.length)) rest behind,
    List.length_append, ← Nat.add_assoc]
  rfl

/-- Fields that nothing is written for. -/
theorem Parses.bind_nil
    {fields : Fields α}
    {first : α}
    (parses : Parses fields [] first)
    (further : Parses (next first) more value) :
    Parses (fields >>= next) more value :=
  parses.bind further

/-- The last fields that something is written for. -/
theorem Parses.bind_last
    {fields : Fields α}
    {first : α}
    (parses : Parses fields written first)
    (further : Parses (next first) [] value) :
    Parses (fields >>= next) written value := by
  have joined := parses.bind further
  rwa [List.append_nil] at joined

theorem parses_expect {condition : Bool} (holds : condition = true) :
    Parses (expect condition) [] () := by
  rw [expect, if_pos holds]
  exact parses_pure ()

theorem parses_pass {count : Nat} {passed : Bytes} (length : passed.length = count) :
    Parses (pass count) passed () := by
  intro source rest stands
  rw [length]
  rfl

theorem readNumber_of_drop
    {source : Source}
    {width number : Nat}
    {rest : Bytes}
    (positive : 0 < width)
    (small : number < 256 ^ width)
    (stands : source.toBytes.drop source.position = Bytes.ofNumber width number ++ rest) :
    Source.readNumber width source = (.ok number, source.movedTo (source.position + width)) := by
  have length := Bytes.length_ofNumber width number
  have nonempty : Bytes.ofNumber width number ≠ [] :=
    List.length_pos_iff.1 (by rw [length]; exact positive)
  have present := Source.numberAt?_of_drop stands nonempty
  rw [length, Bytes.toNumber_ofNumber, Nat.mod_eq_of_lt small] at present
  have read : Chain.Ensures (Source.readNumber width) source _ _ :=
    Chain.ensures_readNumber positive
  unfold Chain.Ensures at read
  rcases answer : (Source.readNumber width source : Except SourceFault Nat × Source) with
    ⟨fault | other, after⟩
  · rw [answer] at read
    have inside := Source.le_size_of_numberAt? present
    exact absurd read.2.1 (Nat.not_lt.2 inside)
  · rw [answer, present] at read
    obtain ⟨same, rfl⟩ := read
    cases same
    rfl

theorem parses_field {width number : Nat} (positive : 0 < width) (small : number < 256 ^ width) :
    Parses (field width) (Bytes.ofNumber width number) number := by
  intro source rest stands
  have adapted : field width source
      = (Except.mapError (fun fault => .failed (.source fault)) (Source.readNumber width source).1,
        (Source.readNumber width source).2) :=
    rfl
  rw [adapted, readNumber_of_drop positive small stands, Bytes.length_ofNumber]
  rfl

end Requests

/-! ## Parts of a header -/

theorem parses_readPastStuffing
    {first : Nat}
    (stuffing left : Nat)
    (isByte : first < 256)
    (notStuffing : first ≠ 0xFF) :
    Parses (readPastStuffing (stuffing + 1 + left))
      (List.replicate stuffing 0xFF ++ Bytes.ofNumber 1 first) (first, left) := by
  induction stuffing with
  | zero =>
      rw [Nat.zero_add, Nat.add_comm, Extent.readPastStuffing_succ, List.replicate_zero,
        List.nil_append]
      apply (parses_field Nat.one_pos isByte).bind_last
      rw [if_neg notStuffing]
      exact parses_pure _
  | succ stuffing inductionHypothesis =>
      have stuffed : Parses (field 1) [0xFF] 0xFF := parses_field Nat.one_pos (by decide)
      rw [show stuffing + 1 + 1 + left = stuffing + 1 + left + 1 by omega,
        Extent.readPastStuffing_succ, List.replicate_succ]
      apply stuffed.bind
      rw [if_pos rfl]
      exact inductionHypothesis

theorem parses_readPastBufferSize
    {first : Nat}
    (size left : Nat)
    (isByte : first < 256) :
    Parses (readPastBufferSize ((left + 2 : Nat) : Int) ((2 ^ 14 + size % 2 ^ 14) / 256))
      (Bytes.ofNumber 1 (2 ^ 14 + size % 2 ^ 14) ++ Bytes.ofNumber 1 first)
      (first, (left : Int)) := by
  have isSize : (2 ^ 14 + size % 2 ^ 14) / 256 / 64 = 1 := by omega
  have enough : decide ((2 : Int) ≤ (left + 2 : Nat)) = true := by
    rw [decide_eq_true_iff]
    omega
  have rest : ((left + 2 : Nat) : Int) - 2 = left := by omega
  rw [readPastBufferSize, if_pos isSize]
  apply (parses_expect enough).bind_nil
  apply (parses_pass (Bytes.length_ofNumber _ _)).bind
  apply (parses_field Nat.one_pos isByte).bind_last
  rw [rest]
  exact parses_pure _

/-- Stuffing and a buffer size are passed over up to the first byte that is
neither. -/
theorem Parses.behindLead
    {id offset left stuffing : Nat}
    {bufferSize : Option Nat}
    {first : Nat}
    {more : Bytes}
    {reading : Reading}
    (isByte : first < 256)
    (notStuffing : first ≠ 0xFF)
    (notSize : first / 64 ≠ 1)
    (parses : Parses (readMarkedForm id offset left first) more reading) :
    Parses (readForm id offset
        (stuffing + (PesForm.bufferSizeBytes bufferSize).length + 1 + left))
      (List.replicate stuffing 0xFF ++ PesForm.bufferSizeBytes bufferSize
        ++ Bytes.ofNumber 1 first ++ more) reading := by
  unfold readForm
  cases bufferSize with
  | none =>
      rw [PesForm.bufferSizeBytes, List.append_nil]
      apply (parses_readPastStuffing stuffing left isByte notStuffing).bind
      have unsized : Parses (readPastBufferSize left first) [] (first, (left : Int)) := by
        rw [readPastBufferSize, if_neg notSize]
        exact parses_pure _
      exact unsized.bind_nil parses
  | some size =>
      have high : (2 ^ 14 + size % 2 ^ 14) / 256 < 256 := by omega
      have bytes : PesForm.bufferSizeBytes (some size)
          = Bytes.ofNumber 1 ((2 ^ 14 + size % 2 ^ 14) / 256)
            ++ Bytes.ofNumber 1 (2 ^ 14 + size % 2 ^ 14) :=
        rfl
      have count : stuffing + (PesForm.bufferSizeBytes (some size)).length + 1 + left
          = stuffing + 1 + (left + 2) := by
        rw [bytes, List.length_append, Bytes.length_ofNumber, Bytes.length_ofNumber]
        omega
      rw [count, bytes, ← List.append_assoc, List.append_assoc (List.replicate stuffing 0xFF ++ _),
        List.append_assoc (List.replicate stuffing 0xFF ++ _)]
      apply (parses_readPastStuffing stuffing (left + 2) high (by omega)).bind
      exact (parses_readPastBufferSize size left isByte).bind parses

/-- The four bytes of a timestamp behind its first one. -/
def timestampTail (ticks : Nat) : Bytes :=
  Bytes.ofNumber 2 (ticks / 2 ^ 15 % 2 ^ 15 * 2 + 1) ++ Bytes.ofNumber 2 (ticks % 2 ^ 15 * 2 + 1)

/-- The first byte of a timestamp. -/
def timestampHead (mark ticks : Nat) : Nat := mark * 2 ^ 4 + ticks / 2 ^ 30 % 2 ^ 3 * 2 + 1

theorem timestampBytes_eq (mark ticks : Nat) :
    timestampBytes mark ticks = Bytes.ofNumber 1 (timestampHead mark ticks) ++ timestampTail ticks :=
  List.append_assoc _ _ _

@[simp] theorem length_timestampBytes (mark ticks : Nat) :
    (timestampBytes mark ticks).length = timestampSize := by
  simp [timestampBytes, timestampSize]

@[simp] theorem length_timestampTail (ticks : Nat) : (timestampTail ticks).length = 4 := by
  simp [timestampTail]

theorem parses_readTimestamp {ticks : Nat} (mark : Nat) (small : ticks < 2 ^ 33) :
    Parses (readTimestamp (timestampHead mark ticks)) (timestampTail ticks) (Time.ofTicks ticks) := by
  unfold readTimestamp timestampTail
  apply (parses_field Nat.two_pos (by omega)).bind
  apply (parses_field Nat.two_pos (by omega)).bind_last
  have marked : (timestampHead mark ticks % 2 == 1
      && (ticks / 2 ^ 15 % 2 ^ 15 * 2 + 1) % 2 == 1
      && (ticks % 2 ^ 15 * 2 + 1) % 2 == 1) = true := by
    simp only [Bool.and_eq_true, beq_iff_eq, timestampHead]
    omega
  apply (parses_expect marked).bind_nil
  have joined : timestampHead mark ticks / 2 % 8 * 2 ^ 30
      + (ticks / 2 ^ 15 % 2 ^ 15 * 2 + 1) / 2 * 2 ^ 15 + (ticks % 2 ^ 15 * 2 + 1) / 2 = ticks := by
    unfold timestampHead
    omega
  rw [joined]
  exact parses_pure _

/-! ## The plain form -/

/-- The marked part of the plain form: its first byte, and what it is read to
with `left` bytes left behind it. -/
theorem exists_marked_plainTimes
    {times : PesTimes}
    (id offset left : Nat)
    (writable : times.IsWritable) :
    ∃ first more, PesForm.plainTimes times = Bytes.ofNumber 1 first ++ more
      ∧ first < 64 ∧ Parses (readMarkedForm id offset (more.length + left : Nat) first) more
          ⟨times.ticks?.map Time.ofTicks, none, left⟩ := by
  cases times with
  | absent =>
      refine ⟨0x0F, [], rfl, by decide, ?_⟩
      exact (parses_expect rfl).bind_nil (by rw [List.length_nil, Nat.zero_add]; exact parses_pure _)
  | presented ticks =>
      have small : ticks < 2 ^ 33 := writable
      have mark : timestampHead 2 ticks / 16 = 2 := by
        unfold timestampHead
        omega
      refine ⟨timestampHead 2 ticks, timestampTail ticks, timestampBytes_eq 2 ticks, by omega, ?_⟩
      have rest : (((timestampTail ticks).length + left : Nat) : Int) - 4 = left := by
        rw [length_timestampTail]
        omega
      rw [readMarkedForm, mark]
      apply (parses_readTimestamp 2 small).bind_last
      rw [rest]
      exact parses_pure _
  | presentedAndDecoded ticks decoding =>
      obtain ⟨small, length⟩ := writable
      have mark : timestampHead 3 ticks / 16 = 3 := by
        unfold timestampHead
        omega
      refine ⟨timestampHead 3 ticks, timestampTail ticks ++ decoding, ?_, by omega, ?_⟩
      · rw [← List.append_assoc, ← timestampBytes_eq]
        rfl
      · have rest : (((timestampTail ticks ++ decoding).length + left : Nat) : Int)
            - (4 + timestampSize) = left := by
          rw [List.length_append, length_timestampTail, length, timestampSize]
          omega
        rw [readMarkedForm, mark]
        apply (parses_readTimestamp 3 small).bind
        apply (parses_pass length).bind_last
        rw [rest]
        exact parses_pure _

theorem parses_readForm_plain
    {times : PesTimes}
    (id offset stuffing : Nat)
    (bufferSize : Option Nat)
    (left : Nat)
    (writable : times.IsWritable) :
    Parses (readForm id offset ((PesForm.plain stuffing bufferSize times).toBytes.length + left))
      (PesForm.plain stuffing bufferSize times).toBytes
      ⟨times.ticks?.map Time.ofTicks, none, left⟩ := by
  obtain ⟨first, more, split, below, parses⟩ := exists_marked_plainTimes id offset left writable
  have lead : (PesForm.plain stuffing bufferSize times).toBytes
      = List.replicate stuffing 0xFF ++ PesForm.bufferSizeBytes bufferSize
          ++ Bytes.ofNumber 1 first ++ more := by
    rw [PesForm.toBytes, split, ← List.append_assoc]
  have count : (PesForm.plain stuffing bufferSize times).toBytes.length + left
      = stuffing + (PesForm.bufferSizeBytes bufferSize).length + 1 + (more.length + left) := by
    simp only [lead, List.length_append, List.length_replicate, Bytes.length_ofNumber]
    omega
  rw [count, lead]
  exact Parses.behindLead (by omega) (by omega) (by omega) parses

/-! ## The sized form -/

/-- The bytes of a first timestamp. -/
def presentation : PesTimes → Bytes
  | .absent => []
  | .presented ticks => timestampBytes 2 ticks
  | .presentedAndDecoded ticks _ => timestampBytes 3 ticks

/-- The bytes of a second timestamp. -/
def decoding : PesTimes → Bytes
  | .presentedAndDecoded _ bytes => bytes
  | _ => []

theorem toBytes_eq (times : PesTimes) : times.toBytes = presentation times ++ decoding times := by
  cases times <;> simp [PesTimes.toBytes, presentation, decoding]

theorem parses_announced
    {ticks headerLeft : Nat}
    (mark : Nat)
    (isMark : mark < 16)
    (small : ticks < 2 ^ 33)
    (fits : timestampSize ≤ headerLeft) :
    Parses (readAnnounced true headerLeft) (timestampBytes mark ticks)
      (some (Time.ofTicks ticks), timestampSize) := by
  have isByte : timestampHead mark ticks < 256 := by
    unfold timestampHead
    omega
  rw [readAnnounced, if_pos rfl, timestampBytes_eq]
  apply (parses_expect (decide_eq_true fits)).bind_nil
  apply (parses_field Nat.one_pos isByte).bind
  exact (parses_readTimestamp mark small).bind_last (parses_pure _)

theorem parses_readAnnounced
    {times : PesTimes}
    {headerLeft : Nat}
    (writable : times.IsWritable)
    (fits : (presentation times).length ≤ headerLeft) :
    Parses (readAnnounced (times.code.testBit 1) headerLeft) (presentation times)
      (times.ticks?.map Time.ofTicks, (presentation times).length) := by
  cases times with
  | absent => exact parses_pure _
  | presented ticks =>
      have isAnnounced : (PesTimes.presented ticks).code.testBit 1 = true :=
        show Nat.testBit 2 1 = true by decide
      rw [presentation, length_timestampBytes] at fits ⊢
      rw [isAnnounced]
      exact parses_announced 2 (by decide) writable fits
  | presentedAndDecoded ticks decoding =>
      have isAnnounced : (PesTimes.presentedAndDecoded ticks decoding).code.testBit 1 = true :=
        show Nat.testBit 3 1 = true by decide
      rw [presentation, length_timestampBytes] at fits ⊢
      rw [isAnnounced]
      exact parses_announced 3 (by decide) writable.1 fits

theorem parses_passAnnounced
    {times : PesTimes}
    {headerLeft : Nat}
    (writable : times.IsWritable)
    (fits : (decoding times).length ≤ headerLeft) :
    Parses (passAnnounced (times.code.testBit 0) headerLeft) (decoding times)
      (decoding times).length := by
  cases times with
  | absent => exact parses_pure _
  | presented ticks =>
      have isAlone : (PesTimes.presented ticks).code.testBit 0 = false :=
        show Nat.testBit 2 0 = false by decide
      rw [isAlone]
      exact parses_pure _
  | presentedAndDecoded ticks bytes =>
      have isFollowed : (PesTimes.presentedAndDecoded ticks bytes).code.testBit 0 = true :=
        show Nat.testBit 3 0 = true by decide
      have length : bytes.length = timestampSize := writable.2
      have enough : timestampSize ≤ headerLeft := length ▸ fits
      rw [isFollowed, passAnnounced, if_pos rfl, decoding, length]
      apply (parses_expect (decide_eq_true enough)).bind_nil
      exact (parses_pass length).bind_last (parses_pure _)

theorem ofNumber_one_toNat (byte : UInt8) : Bytes.ofNumber 1 byte.toNat = [byte] := by
  simp [Bytes.ofNumber]

/-- The reader expects the info that is written. -/
theorem infoSize_cases (id : Nat) :
    SubStream.infoSize id = 0 ∧ hasFrameInfo id = false
      ∨ SubStream.infoSize id = subHeaderSize ∧ hasFrameInfo id = true ∧ isSampled id = false
      ∨ SubStream.infoSize id = subHeaderSize + subHeaderSize ∧ hasFrameInfo id = true
        ∧ isSampled id = true := by
  unfold SubStream.infoSize hasFrameInfo isSampled subHeaderSize
  simp only [Bool.or_eq_true, Bool.or_eq_false_iff, Bool.and_eq_true, Bool.and_eq_false_iff,
    decide_eq_true_iff, decide_eq_false_iff_not, beq_iff_eq, beq_eq_false_iff_ne]
  split
  · omega
  · split <;> omega

/-- Frame info is passed over, and a sample layout behind it. -/
theorem parses_passInfo
    {sub : SubStream}
    {left : Nat}
    {total : Int}
    (length : sub.info.length = SubStream.infoSize sub.id.toNat)
    (count : total = (sub.info.length + left : Nat)) :
    Parses (passInfo sub.id.toNat total) sub.info left := by
  unfold passInfo
  obtain ⟨size, noInfo⟩ | ⟨size, hasInfo, notSampled⟩ | ⟨size, hasInfo, isSampled⟩ :=
    infoSize_cases sub.id.toNat
  · have nothing : sub.info = [] := List.length_eq_zero_iff.1 (length.trans size)
    rw [nothing, List.length_nil, Nat.zero_add] at count
    rw [noInfo, nothing, count]
    exact parses_pure _
  · have rest : total - subHeaderSize = left := by omega
    rw [hasInfo, notSampled, if_pos rfl]
    apply (parses_pass (length.trans size)).bind_last
    dsimp only
    rw [rest]
    exact parses_pure _
  · have enough : decide ((subHeaderSize : Int) ≤ total - subHeaderSize) = true := by
      rw [decide_eq_true_iff]
      omega
    have rest : total - subHeaderSize - subHeaderSize = left := by omega
    rw [hasInfo, isSampled, if_pos rfl, ← List.take_append_drop subHeaderSize sub.info]
    apply (parses_pass (by rw [List.length_take]; omega)).bind
    dsimp only
    rw [Bool.true_and, if_pos enough]
    apply (parses_pass (by rw [List.length_drop]; omega)).bind_last
    rw [rest]
    exact parses_pure _

/-- A sub-stream is read with its info, where as many bytes are left behind it
as its payload has at least. -/
theorem parses_readSubStream
    {sub : SubStream}
    {left : Nat}
    {total : Int}
    (writable : sub.IsWritable)
    (enough : (if sub.info = [] then 3 else 1) ≤ left)
    (count : total = (sub.toBytes.length + left : Nat)) :
    Parses (readSubStream total) sub.toBytes (sub.id.toNat, (left : Int)) := by
  obtain ⟨noPictures, length⟩ := writable
  have isByte : sub.id.toNat < 256 ^ 1 := sub.id.toNat_lt
  have written : sub.toBytes = Bytes.ofNumber 1 sub.id.toNat ++ sub.info := by
    rw [ofNumber_one_toNat]
    rfl
  have size : sub.toBytes.length = sub.info.length + 1 := rfl
  have fits : decide (4 ≤ total) = true := by
    rw [decide_eq_true_iff]
    split at enough
    next => omega
    next some =>
      have sizes := infoSize_cases sub.id.toNat
      have positive := List.length_pos_iff.2 some
      simp only [subHeaderSize] at sizes
      omega
  have shown : (!isSubpicture sub.id.toNat) = true := by
    simp only [isSubpicture, Bool.not_eq_true', beq_eq_false_iff_ne]
    omega
  have infoLeft : total - 1 = (sub.info.length + left : Nat) := by omega
  rw [readSubStream, written]
  apply (parses_expect fits).bind_nil
  apply (parses_field Nat.one_pos isByte).bind
  apply (parses_expect shown).bind_nil
  exact (parses_passInfo length infoLeft).bind_last (parses_pure _)

/-- The sized form behind its first byte. -/
def sizedTail (flags : Nat) (times : PesTimes) (extra : Bytes) (sub : Option SubStream) : Bytes :=
  Bytes.ofNumber 1 (times.code * 2 ^ 6 + flags % 2 ^ 6)
    ++ (Bytes.ofNumber 1 (times.toBytes.length + extra.length)
      ++ (presentation times ++ (decoding times ++ (extra ++ (sub.map SubStream.toBytes).getD []))))

theorem toBytes_sized
    (rights flags : Nat)
    (times : PesTimes)
    (extra : Bytes)
    (sub : Option SubStream) :
    (PesForm.sized rights flags times extra sub).toBytes
      = Bytes.ofNumber 1 (2 ^ 7 + rights % 2 ^ 4) ++ sizedTail flags times extra sub := by
  simp only [PesForm.toBytes, sizedTail, toBytes_eq, List.append_assoc]

theorem code_le_three (times : PesTimes) : times.code ≤ 3 := by
  cases times <;> simp [PesTimes.code]

theorem parses_readSizedForm
    {id rights flags : Nat}
    {times : PesTimes}
    {extra : Bytes}
    {sub : Option SubStream}
    {left : Nat}
    {total : Int}
    (offset : Nat)
    (writable : (PesForm.sized rights flags times extra sub).IsWritable id)
    (enough : (PesForm.sized rights flags times extra sub).leastPayload ≤ left)
    (count : total = ((sizedTail flags times extra sub).length + left : Nat)) :
    Parses (readSizedForm id offset total (2 ^ 7 + rights % 2 ^ 4))
      (sizedTail flags times extra sub)
      ⟨times.ticks?.map Time.ofTicks, sub.map fun sub => sub.id.toNat, left⟩ := by
  obtain ⟨timesWritable, sizeFits, hasSub, subWritable⟩ := writable
  have code := code_le_three times
  have clear : ¬(2 ^ 7 + rights % 2 ^ 4) / 16 % 4 ≠ 0 := by omega
  have announced : (times.code * 2 ^ 6 + flags % 2 ^ 6) / 64 = times.code := by omega
  have size : times.toBytes.length = (presentation times).length + (decoding times).length := by
    rw [toBytes_eq, List.length_append]
  rw [readSizedForm, if_neg clear]
  unfold sizedTail at count ⊢
  simp only [List.length_append, Bytes.length_ofNumber] at count
  have headerFits : decide (((times.toBytes.length + extra.length : Nat) : Int) ≤ total - 2)
      = true := by
    rw [decide_eq_true_iff]
    omega
  have rest : total - 2 - (presentation times).length - (decoding times).length
      - (times.toBytes.length + extra.length - (presentation times).length
          - (decoding times).length : Nat)
        = (((sub.map SubStream.toBytes).getD []).length + left : Nat) := by
    omega
  apply (parses_field Nat.one_pos (by omega)).bind
  apply (parses_field Nat.one_pos sizeFits).bind
  apply (parses_expect headerFits).bind_nil
  rw [announced]
  apply (parses_readAnnounced timesWritable (by omega)).bind
  apply (parses_passAnnounced timesWritable (by omega)).bind
  apply (parses_pass (by omega)).bind
  dsimp only
  rw [rest]
  cases sub with
  | none =>
      have other : id ≠ StreamId.privateStream1 := by simpa [StreamId.privateStream1] using hasSub
      rw [if_neg other, Option.map_none, Option.getD_none, List.length_nil, Nat.zero_add]
      exact parses_pure _
  | some sub =>
      have isPrivate : id = StreamId.privateStream1 := by simpa [StreamId.privateStream1] using hasSub
      rw [if_pos isPrivate]
      exact (parses_readSubStream (subWritable sub rfl) enough rfl).bind_last (parses_pure _)

/-! ## Whole headers -/

theorem leastPayload_pos (form : PesForm) : 0 < form.leastPayload := by
  unfold PesForm.leastPayload
  split
  · split <;> decide
  · decide

theorem parses_readForm
    {id left : Nat}
    {form : PesForm}
    (offset : Nat)
    (writable : form.IsWritable id)
    (enough : form.leastPayload ≤ left) :
    Parses (readForm id offset (form.toBytes.length + left)) form.toBytes
      ⟨form.times.ticks?.map Time.ofTicks, form.subId?, left⟩ := by
  cases form with
  | plain stuffing bufferSize times =>
      exact parses_readForm_plain id offset stuffing bufferSize left writable
  | sized rights flags times extra sub =>
      have mark : (2 ^ 7 + rights % 2 ^ 4) / 16 = 8 := by omega
      have marked := parses_readSizedForm offset writable enough rfl
      have count : (PesForm.sized rights flags times extra sub).toBytes.length + left
          = 0 + (PesForm.bufferSizeBytes none).length + 1
            + ((sizedTail flags times extra sub).length + left) := by
        rw [toBytes_sized, List.length_append, Bytes.length_ofNumber]
        simp only [PesForm.bufferSizeBytes, List.length_nil]
        omega
      rw [count, toBytes_sized]
      apply Parses.behindLead (by omega) (by omega) (by omega)
      rw [readMarkedForm, mark]
      exact marked

theorem parses_readHeader
    {id left : Nat}
    {form : PesForm}
    (offset : Nat)
    (parseable : StreamId.isParseable id = true)
    (writable : form.IsWritable id)
    (enough : form.leastPayload ≤ left) :
    Parses (readHeader id offset (form.toBytes.length + left)) form.toBytes
      ⟨id, form.subId?, form.times.ticks?.map Time.ofTicks, left, form.toBytes.length + left⟩ := by
  have positive := leastPayload_pos form
  have usable : (StreamId.isParseable id && form.toBytes.length + left != 0) = true := by
    rw [parseable, Bool.true_and, bne_iff_ne]
    omega
  have nonempty : decide (0 < (left : Int)) = true := by
    rw [decide_eq_true_iff]
    omega
  unfold readHeader
  apply (parses_expect usable).bind_nil
  apply (parses_readForm offset writable enough).bind_last
  exact (parses_expect nonempty).bind_nil (parses_pure _)

end Pes

theorem ticks_lt_of_isWritable
    {id ticks : Nat}
    {form : PesForm}
    (writable : form.IsWritable id)
    (isTime : form.times.ticks? = some ticks) :
    ticks < 2 ^ 33 := by
  have timesWritable : form.times.IsWritable := by
    cases form with
    | plain => exact writable
    | sized => exact writable.1
  cases times : form.times with
  | absent =>
      rw [times] at isTime
      cases isTime
  | presented =>
      rw [times] at isTime timesWritable
      cases isTime
      exact timesWritable
  | presentedAndDecoded =>
      rw [times] at isTime timesWritable
      cases isTime
      exact timesWritable.1

section Written

variable {source : Source} {id offset : Nat} {form : PesForm} {payload rest : Bytes}

/-- A packet as it is written, wherever it stands and whatever follows it, is
read back with everything its header says, up to the first byte of payload. -/
theorem readPes_writePes
    (parseable : StreamId.isParseable id = true)
    (writable : form.IsWritable id)
    (enough : form.leastPayload ≤ payload.length)
    (fits : form.toBytes.length + payload.length ≤ 65535)
    (stands : source.toBytes.drop source.position = writePes form payload ++ rest) :
    readPes id offset source
        = (.ok (.payload
            { streamId := id
              subId := form.subId?
              timestamp := form.times.ticks?.map fun ticks => ((ticks * 100000 / 9 : Nat) : Int)
              payloadLength := payload.length
              fullLength := form.toBytes.length + payload.length }),
          source.movedTo (source.position + 2 + form.toBytes.length))
      ∧ source.toBytes.drop (source.position + 2 + form.toBytes.length) = payload ++ rest := by
  have small : form.toBytes.length + payload.length < 256 ^ 2 := by omega
  rw [writePes, List.append_assoc, List.append_assoc] at stands
  have lengthField := Pes.readNumber_of_drop Nat.two_pos small stands
  have behindLength := Source.drop_of_drop stands
  rw [Bytes.length_ofNumber] at behindLength
  have header := Pes.parses_readHeader offset parseable writable enough
    (source.movedTo (source.position + 2)) (payload ++ rest) behindLength
  have times : form.times.ticks?.map Time.ofTicks
      = form.times.ticks?.map fun ticks => ((ticks * 100000 / 9 : Nat) : Int) := by
    apply Option.map_congr
    intro ticks isTime
    have below := ticks_lt_of_isWritable writable isTime
    exact Time.ofTicks_eq (by omega)
  refine ⟨?_, Source.drop_of_drop behindLength⟩
  rw [readPes, lengthField]
  dsimp only
  rw [header, times]
  rfl

end Written

/-- A header with everything that can stand in one: two timestamps, a byte of
padding, and samples with both parts of their info. -/
def samplesForm : PesForm :=
  .sized 1 5 (.presentedAndDecoded 900000 [0x11, 0x00, 0x01, 0x00, 0x01]) [0xFF]
    (some ⟨0xA0, [0x01, 0x00, 0x01, 0x00, 0x81, 0x80]⟩)

/-- A packet with that header, behind another byte. -/
def samplesFile : Source := (Source.ofBytes (0xAB :: writePes samplesForm [0x11, 0x22])).movedTo 1

theorem readPes_writePes_samplesForm :
    StreamId.isParseable 0xBD = true
      ∧ samplesForm.IsWritable 0xBD
      ∧ samplesForm.leastPayload ≤ [0x11, 0x22].length
      ∧ samplesForm.toBytes.length + [0x11, 0x22].length ≤ 65535
      ∧ samplesFile.toBytes.drop samplesFile.position = writePes samplesForm [0x11, 0x22] ++ []
      ∧ readPes 0xBD 3 samplesFile
          = (.ok (.payload ⟨0xBD, some 0xA0, some 10000000000, 2, 23⟩), samplesFile.movedTo 24)
      ∧ samplesFile.toBytes.drop 24 = [0x11, 0x22] := by
  have parseable : StreamId.isParseable 0xBD = true := by decide
  have writable : samplesForm.IsWritable 0xBD := by
    refine ⟨⟨by decide, rfl⟩, by decide, rfl, ?_⟩
    intro sub named
    cases named
    exact ⟨by decide, by decide⟩
  have enough : samplesForm.leastPayload ≤ [0x11, 0x22].length := by decide
  have fits : samplesForm.toBytes.length + [0x11, 0x22].length ≤ 65535 := by decide
  have stands : samplesFile.toBytes.drop samplesFile.position
      = writePes samplesForm [0x11, 0x22] ++ [] := by
    decide
  exact ⟨parseable, writable, enough, fits, stands,
    readPes_writePes parseable writable enough fits stands⟩

end MediaSplit.ProgramStream
