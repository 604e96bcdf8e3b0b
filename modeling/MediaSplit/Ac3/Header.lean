import MediaSplit.Bits.Reader
import MediaSplit.Fault
import MediaSplit.Text.Hex
import MediaSplit.Time.Nanoseconds
import MediaSplit.Track

/-!
Contract: sync frame headers of AC-3 and E-AC-3.

Owns:
- `Ac3.Header` and `Ac3.Header.parse`, with the tables of the two formats;
- `Ac3.Error`, why a header is refused.

Both formats start with the same sync word. The bitstream id, which stands at
the same place in both, decides which syntax follows: up to 10 is AC-3, 11 to
16 is E-AC-3. Eight bytes decide everything.
-/

set_option autoImplicit false

namespace MediaSplit.Ac3

/-- The sync word of both formats. -/
def syncWord : Nat := 0x0B77

/-- Bytes that decide every header. -/
def headerSize : Nat := 8

/-- Why a header is refused. -/
inductive Error where
  | invalidSyncWord (found : Nat)
  | invalidBitstreamId (id : Nat)
  | unsupportedSampleRate (code : Nat)
  | unsupportedFrameSize (code : Nat)
  | corruption (reason : String)
  | insufficientData (needed available : Nat)
  | bits (error : Bits.Error)
  deriving DecidableEq, Repr, Inhabited

namespace Error

/-- The text shown for a refused header. -/
def message : Error → String
  | invalidSyncWord found =>
      "Invalid sync word: expected 0x0B77, got 0x" ++ Text.hexLower 4 found
  | invalidBitstreamId id => "Invalid bitstream ID: " ++ toString id
  | unsupportedSampleRate code => "Unsupported sample rate code: " ++ toString code
  | unsupportedFrameSize code => "Unsupported frame size code: " ++ toString code
  | corruption reason => "Bitstream corruption: " ++ reason
  | insufficientData needed available =>
      "Insufficient data: need " ++ toString needed ++ " bytes, have " ++ toString available
  | bits error => "Bitstream error: " ++ (Fault.bits error).message

/-- The refusal as a fault of a reader. -/
def toFault : Error → Fault
  | bits error => .bits error
  | error => .malformedHeader error.message

end Error

/-- Samples per second for each sample rate code. -/
def sampleRates : List Nat := [48000, 44100, 32000]

/-- Samples per second for each code of the reduced rates of E-AC-3. -/
def reducedSampleRates : List Nat := [24000, 22050, 16000]

/-- Kilobits per second for each pair of AC-3 frame size codes. -/
def bitrates : List Nat :=
  [32, 40, 48, 56, 64, 80, 96, 112, 128, 160, 192, 224, 256, 320, 384, 448, 512, 576, 640]

/-- Frame sizes in 16-bit words at 48 kHz. -/
def frameWords48 : List Nat :=
  [64, 80, 96, 112, 128, 160, 192, 224, 256, 320, 384, 448, 512, 640, 768, 896, 1024, 1152, 1280]

/-- Frame sizes in 16-bit words at 44.1 kHz; odd codes have one word more. -/
def frameWords44 : List Nat :=
  [69, 87, 104, 121, 139, 174, 208, 243, 278, 348, 417, 487, 557, 696, 835, 975, 1114, 1253, 1393]

/-- Frame sizes in 16-bit words at 32 kHz. -/
def frameWords32 : List Nat :=
  [96, 120, 144, 168, 192, 240, 288, 336, 384, 480, 576, 672, 768, 960, 1152, 1344, 1536, 1728,
    1920]

/-- Full-bandwidth channels of each audio coding mode. -/
def modeChannels : List Nat := [2, 1, 2, 3, 3, 4, 4, 5]

/-- Audio blocks in an E-AC-3 frame for each block count code. -/
def blockCounts : List Nat := [1, 2, 3, 6]

/-- What a sync frame header says. -/
structure Header where
  bitstreamId : Nat
  /-- Samples per second. -/
  sampleRate : Nat
  /-- Audio coding mode. -/
  codingMode : Nat
  /-- Whether there is a low-frequency channel. -/
  hasLfe : Bool
  /-- All channels, the low-frequency one included. -/
  channels : Nat
  /-- Frame length in bytes. -/
  frameSize : Nat
  /-- Samples of each channel in the frame. -/
  samples : Nat
  /-- Kilobits per second; AC-3 only. -/
  bitrate : Option Nat
  deriving DecidableEq, Repr, Inhabited

namespace Header

/-- The fields of an AC-3 header, as written. -/
structure CoreFields where
  sampleRateCode : Nat
  frameSizeCode : Nat
  bitstreamId : Nat
  codingMode : Nat
  hasLfe : Bool

/-- Reads the fields of an AC-3 header behind its sync word. Which mix levels
precede the low-frequency flag hangs on the coding mode. -/
def readCore : Bits.Parse CoreFields := do
  BitReader.skip 16
  let sampleRateCode ← BitReader.readBits 2
  let frameSizeCode ← BitReader.readBits 6
  let bitstreamId ← BitReader.readBits 5
  BitReader.skip 3
  let codingMode ← BitReader.readBits 3
  let centreMix := if codingMode % 2 = 1 ∧ codingMode ≠ 1 then 2 else 0
  let surroundMix := if 4 ≤ codingMode then 2 else 0
  let surroundMode := if codingMode = 2 then 2 else 0
  BitReader.skip (centreMix + surroundMix + surroundMode)
  let hasLfe ← BitReader.readFlag
  return ⟨sampleRateCode, frameSizeCode, bitstreamId, codingMode, hasLfe⟩

/-- Frame length in 16-bit words, if the codes have one. -/
def frameWords (sampleRateCode frameSizeCode : Nat) : Nat :=
  let index := frameSizeCode / 2
  match sampleRateCode with
  | 0 => frameWords48.getD index 0
  | 1 => frameWords44.getD index 0 + frameSizeCode % 2
  | _ => frameWords32.getD index 0

/-- The header that AC-3 fields stand for. Bitstream ids 9 and 10 halve and
quarter the rates. -/
def ofCore (fields : CoreFields) : Except Error Header :=
  if 3 ≤ fields.sampleRateCode then .error (.unsupportedSampleRate fields.sampleRateCode)
  else if 38 ≤ fields.frameSizeCode then .error (.unsupportedFrameSize fields.frameSizeCode)
  else
    let divisor := 2 ^ (fields.bitstreamId - 8)
    .ok {
      bitstreamId := fields.bitstreamId
      sampleRate := sampleRates.getD fields.sampleRateCode 0 / divisor
      codingMode := fields.codingMode
      hasLfe := fields.hasLfe
      channels := modeChannels.getD fields.codingMode 0 + fields.hasLfe.toNat
      frameSize := frameWords fields.sampleRateCode fields.frameSizeCode * 2
      samples := 1536
      bitrate := some (bitrates.getD (fields.frameSizeCode / 2) 0 / divisor) }

/-- The fields of an E-AC-3 header, as written. -/
structure EnhancedFields where
  streamType : Nat
  frameSizeCode : Nat
  sampleRateCode : Nat
  /-- The block count code, or the reduced rate code where the sample rate
  code is 3. -/
  secondCode : Nat
  codingMode : Nat
  hasLfe : Bool
  bitstreamId : Nat

/-- Reads the fields of an E-AC-3 header behind its sync word. -/
def readEnhanced : Bits.Parse EnhancedFields := do
  let streamType ← BitReader.readBits 2
  BitReader.skip 3
  let frameSizeCode ← BitReader.readBits 11
  let sampleRateCode ← BitReader.readBits 2
  let secondCode ← BitReader.readBits 2
  let codingMode ← BitReader.readBits 3
  let hasLfe ← BitReader.readFlag
  let bitstreamId ← BitReader.readBits 5
  return ⟨streamType, frameSizeCode, sampleRateCode, secondCode, codingMode, hasLfe, bitstreamId⟩

/-- Sample rate and block count that E-AC-3 fields stand for. -/
def enhancedTiming (fields : EnhancedFields) : Except Error (Nat × Nat) :=
  if fields.sampleRateCode = 3 then
    match reducedSampleRates[fields.secondCode]? with
    | some rate => .ok (rate, 6)
    | none => .error (.unsupportedSampleRate fields.secondCode)
  else .ok (sampleRates.getD fields.sampleRateCode 0, blockCounts.getD fields.secondCode 0)

/-- The header that E-AC-3 fields stand for. -/
def ofEnhanced (fields : EnhancedFields) : Except Error Header :=
  if fields.streamType = 3 then .error (.corruption "reserved E-AC-3 stream type")
  else do
    let (rate, blocks) ← enhancedTiming fields
    return {
      bitstreamId := fields.bitstreamId
      sampleRate := rate
      codingMode := fields.codingMode
      hasLfe := fields.hasLfe
      channels := modeChannels.getD fields.codingMode 0 + fields.hasLfe.toNat
      frameSize := (fields.frameSizeCode + 1) * 2
      samples := 256 * blocks
      bitrate := none }

/-- Runs a field reader on the bytes behind the sync word. -/
def fieldsOf {α : Type} (fields : Bits.Parse α) (data : Bytes) : Except Error α :=
  match (fields (BitReader.ofBytes (data.drop 2))).1 with
  | .ok value => .ok value
  | .error error => .error (.bits error)

/-- The header that the first bytes of `data` spell. The field readers see all
of `data`. -/
def ofLeadingBytes (data : Bytes) : Except Error Header :=
  let sync := Bytes.toNumber (data.take 2)
  if sync ≠ syncWord then .error (.invalidSyncWord sync)
  else
    let bitstreamId := (data.getD 5 0).toNat / 8
    if bitstreamId ≤ 10 then do ofCore (← fieldsOf readCore data)
    else if bitstreamId ≤ 16 then do ofEnhanced (← fieldsOf readEnhanced data)
    else .error (.invalidBitstreamId bitstreamId)

/-- Parses the header at the start of `data`. -/
def parse (data : Bytes) : Except Error Header :=
  if Bytes.hasAtLeast headerSize data then ofLeadingBytes data
  else .error (.insufficientData headerSize data.length)

/-- Parses the header at the start of `data`, if there is one. -/
def parse? (data : Bytes) : Option Header := (parse data).toOption

/-- Whether the header is one of E-AC-3. -/
def isEnhanced (header : Header) : Bool := 10 < header.bitstreamId

/-- The codec a track with this header carries. Only bitstream id 16 counts as
E-AC-3 here. -/
def codec (header : Header) : Codec :=
  if header.bitstreamId = 16 then .eac3 else .ac3

/-- How long the frame plays. -/
def duration (header : Header) : Option Int :=
  Time.ofSamples? header.samples header.sampleRate

end Header

end MediaSplit.Ac3
