import MediaSplit.Proofs.Ac3.Header
import MediaSplit.Proofs.Dts.Header
import MediaSplit.Proofs.Reading

/-!
Contract: what a header says does not hang on what follows it.

Owns: for DTS, why sixteen bytes are refused and how long a frame is that they
start; and `headers_areSettled`, which says of AC-3 and DTS what first bytes
settle for good, for any bytes and any bytes behind them.

A chunk of a file ends anywhere. Reading it again with more bytes behind it may
settle what was open but never changes what was said.
-/

set_option autoImplicit false

namespace MediaSplit

namespace Dts.Header

/-- Sixteen bytes are refused for what they say, never for being too few. -/
theorem cause_of_parse
    {data : Bytes}
    {error : Error}
    (enough : headerSize ≤ data.length)
    (refused : parse data = .error error) :
    (∃ found, error = .invalidSyncWord found)
      ∨ (∃ reason, error = .invalidHeader reason)
      ∨ ∃ code, error = .unsupportedSampleRate code := by
  rcases exists_fields_of_parse enough with ⟨found, other⟩ | ⟨fields, -, same⟩
  · rw [other] at refused
    exact .inl ⟨found, (Except.error.inj refused).symm⟩
  · rw [same] at refused
    exact .inr (cause_of_ofFields refused)

theorem parse_ne_bits {data : Bytes} (enough : headerSize ≤ data.length) (error : Bits.Error) :
    parse data ≠ .error (.bits error) := by
  intro refused
  rcases cause_of_parse enough refused with ⟨_, cause⟩ | ⟨_, cause⟩ | ⟨_, cause⟩ <;> cases cause

theorem parse_ne_insufficientData
    {data : Bytes}
    (enough : headerSize ≤ data.length)
    (needed available : Nat) :
    parse data ≠ .error (.insufficientData needed available) := by
  intro refused
  rcases cause_of_parse enough refused with ⟨_, cause⟩ | ⟨_, cause⟩ | ⟨_, cause⟩ <;> cases cause

theorem frameSize_of_parse
    {data : Bytes}
    {header : Header}
    (enough : headerSize ≤ data.length)
    (parsed : parse data = .ok header) :
    96 ≤ header.frameSize ∧ header.frameSize ≤ 16384 := by
  rcases exists_fields_of_parse enough with ⟨found, other⟩ | ⟨fields, below, same⟩
  · rw [other] at parsed
    cases parsed
  · rw [same] at parsed
    obtain ⟨least, isNext⟩ := frameSize_of_ofFields parsed
    have atLeast : 95 ≤ fields.frameSizeField := least
    omega

/-- A length that is not open is final. -/
theorem frameLength?_open_or_final (header : Header) (data more : Bytes) :
    header.frameLength? data = none
      ∨ header.frameLength? data = header.frameLength? (data ++ more) := by
  cases told : header.frameLength? data with
  | none => exact .inl rfl
  | some length => exact .inr (frameLength?_append told more).symm

end Dts.Header

namespace Elementary

/-- What `data` settles of a header and of the frame behind it, where `more` may
follow. -/
structure AreSettled (data more : Bytes) : Prop where
  ac3 : 8 ≤ data.length → Ac3.Header.parse (data ++ more) = Ac3.Header.parse data
  ac3_ne_bits : 8 ≤ data.length → ∀ error, Ac3.Header.parse data ≠ .error (.bits error)
  dts : 16 ≤ data.length → Dts.Header.parse (data ++ more) = Dts.Header.parse data
  dts_ne_bits : 16 ≤ data.length → ∀ error, Dts.Header.parse data ≠ .error (.bits error)
  dts_ne_insufficientData : 16 ≤ data.length →
    ∀ needed available, Dts.Header.parse data ≠ .error (.insufficientData needed available)
  dts_frameSize : 16 ≤ data.length →
    ∀ header, Dts.Header.parse data = .ok header →
      96 ≤ header.frameSize ∧ header.frameSize ≤ 16384
  dts_frameLength? : ∀ header : Dts.Header,
    header.frameLength? data = none
      ∨ header.frameLength? data = header.frameLength? (data ++ more)
  dts_frameLength?_eq_none_iff : ∀ header : Dts.Header,
    header.frameLength? data = none
      ↔ data.length < header.frameSize + 4
        ∨ Bytes.ofNumber 4 Dts.substreamSync <+: data.drop header.frameSize
          ∧ data.length < header.frameSize + 12

/-- Eight bytes settle an AC-3 header and sixteen a DTS header; a length of a
DTS frame is open while too few bytes follow, and final from then on. -/
theorem headers_areSettled (data more : Bytes) : AreSettled data more where
  ac3 enough := Ac3.Header.parse_append enough more
  ac3_ne_bits := Ac3.Header.parse_ne_bits
  dts enough := Dts.Header.parse_append enough more
  dts_ne_bits := Dts.Header.parse_ne_bits
  dts_ne_insufficientData := Dts.Header.parse_ne_insufficientData
  dts_frameSize enough _ := Dts.Header.frameSize_of_parse enough
  dts_frameLength? header := header.frameLength?_open_or_final data more
  dts_frameLength?_eq_none_iff header := header.frameLength?_eq_none_iff data

/-- A DTS core of 96 bytes and the first eleven of a substream. -/
def coreAndElevenBytes : Bytes :=
  [0x7F, 0xFE, 0x80, 0x01, 0xFC, 0x3C, 0x05, 0xF0, 0xB4, 0x00] ++ List.replicate 86 0
    ++ [0x64, 0x58, 0x20, 0x25, 0, 0, 0, 0x01, 0xE0, 0, 0]

/-- What the header of that core says. -/
def shortCore : Dts.Header where
  frameSize := 96
  blocks := 16
  sampleRate := 48000
  arrangement := 2
  channels := 2
  hasLfe := false
  bitRate := some 32
  bitDepth := some 16
  hasCheckWord := false
  hasExtension := false

/-- The header is settled though the length of the frame hangs on one more byte. -/
theorem headers_areSettled_coreAndElevenBytes :
    Dts.Header.parse coreAndElevenBytes = .ok shortCore
      ∧ (96 ≤ shortCore.frameSize ∧ shortCore.frameSize ≤ 16384)
      ∧ Dts.Header.parse (coreAndElevenBytes ++ [0]) = .ok shortCore
      ∧ (∀ error, Dts.Header.parse coreAndElevenBytes ≠ .error (.bits error))
      ∧ (∀ needed available,
          Dts.Header.parse coreAndElevenBytes ≠ .error (.insufficientData needed available))
      ∧ shortCore.frameLength? coreAndElevenBytes = none
      ∧ shortCore.frameLength? (coreAndElevenBytes ++ [0]) = some 112
      ∧ Ac3.Header.parse ([0x0B, 0x77, 0, 0, 0x14, 0x40, 0x43, 0xE1] ++ [0])
          = Ac3.Header.parse [0x0B, 0x77, 0, 0, 0x14, 0x40, 0x43, 0xE1]
      ∧ ∀ error,
          Ac3.Header.parse [0x0B, 0x77, 0, 0, 0x14, 0x40, 0x43, 0xE1] ≠ .error (.bits error) := by
  have dts := headers_areSettled coreAndElevenBytes [0]
  have ac3 := headers_areSettled [0x0B, 0x77, 0, 0, 0x14, 0x40, 0x43, 0xE1] [0]
  have sixteen : 16 ≤ coreAndElevenBytes.length := by decide
  have eight : 8 ≤ ([0x0B, 0x77, 0, 0, 0x14, 0x40, 0x43, 0xE1] : Bytes).length := by decide
  have parsed : Dts.Header.parse coreAndElevenBytes = .ok shortCore :=
    toOption_eq_some_iff.1 (by decide +kernel)
  have isOpen : shortCore.frameLength? coreAndElevenBytes = none := by
    rw [dts.dts_frameLength?_eq_none_iff]
    exact .inr (by decide)
  exact ⟨parsed, dts.dts_frameSize sixteen shortCore parsed, (dts.dts sixteen).trans parsed,
    dts.dts_ne_bits sixteen, dts.dts_ne_insufficientData sixteen, isOpen, by decide +kernel,
    ac3.ac3 eight, ac3.ac3_ne_bits eight⟩

end Elementary

end MediaSplit
