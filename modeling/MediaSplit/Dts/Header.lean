import MediaSplit.Bits.Reader
import MediaSplit.Fault
import MediaSplit.Text.Hex
import MediaSplit.Time.Nanoseconds

/-!
Contract: core frame headers of DTS in the native layout, and the substream
that may follow a core frame.

Owns:
- `Dts.Header` and `Dts.Header.parse`, with the tables of the format;
- `Dts.Header.frameLength?`, the length of a core frame with its substream;
- `Dts.Error`, why a header is refused.

Sixteen bytes decide a header. Whether a substream follows is known only four
bytes behind the core frame, so the length of the whole frame can be open.
-/

set_option autoImplicit false

namespace MediaSplit.Dts

/-- The sync word of a core frame. -/
def coreSync : Nat := 0x7FFE8001

/-- The sync word of a substream. -/
def substreamSync : Nat := 0x64582025

/-- Bytes that decide every core header. -/
def headerSize : Nat := 16

/-- Bytes that tell the size of a substream. -/
def substreamHeaderSize : Nat := 12

/-- Why a header is refused. -/
inductive Error where
  | invalidSyncWord (found : Nat)
  | invalidHeader (reason : String)
  | unsupportedSampleRate (code : Nat)
  | insufficientData (needed available : Nat)
  | bits (error : Bits.Error)
  deriving DecidableEq, Repr, Inhabited

namespace Error

/-- The text shown for a refused header. -/
def message : Error → String
  | invalidSyncWord found =>
      "Invalid sync word: expected DTS or TrueHD sync, got 0x" ++ Text.hexLower 8 found
  | invalidHeader reason => "Invalid frame header: " ++ reason
  | unsupportedSampleRate code => "Unsupported sample rate code: " ++ toString code
  | insufficientData needed available =>
      "Insufficient data: need " ++ toString needed ++ " bytes, have " ++ toString available
  | bits error => "Bitstream error: " ++ (Fault.bits error).message

/-- The refusal as a fault of a reader. -/
def toFault : Error → Fault
  | bits error => .bits error
  | error => .malformedHeader error.message

end Error

/-- The least frame size field. -/
def leastFrameSizeField : Nat := 95

/-- The least block count field. -/
def leastBlockField : Nat := 5

/-- Samples per second for each sample rate code; 0 marks an invalid code. -/
def sampleRates : List Nat :=
  [0, 8000, 16000, 32000, 0, 0, 11025, 22050, 44100, 0, 0, 12000, 24000, 48000, 96000, 192000]

/-- Kilobits per second for each rate code; 0 marks open, variable and
lossless rates. -/
def bitRates : List Nat :=
  [32, 56, 64, 96, 112, 128, 192, 224, 256, 320, 384, 448, 512, 576, 640, 768, 896, 1024, 1152,
    1280, 1344, 1408, 1411, 1472, 1536, 1920, 2048, 3072, 3840, 0, 0, 0]

/-- Channels of each standard arrangement, the low-frequency one left out. -/
def arrangementChannels : List Nat := [1, 2, 2, 2, 2, 3, 3, 4, 4, 5, 6, 6, 6, 7, 8, 8]

/-- Bits per sample of the recording for each resolution code. -/
def resolutions : List (Option Nat) :=
  [some 16, some 16, some 20, some 20, none, some 24, some 24, none]

/-- What a core header says. -/
structure Header where
  /-- Length of the core frame in bytes. -/
  frameSize : Nat
  /-- Sample blocks in the frame. -/
  blocks : Nat
  /-- Samples per second. -/
  sampleRate : Nat
  /-- Channel arrangement code. -/
  arrangement : Nat
  /-- All channels, the low-frequency one included. -/
  channels : Nat
  hasLfe : Bool
  /-- Kilobits per second; none for open, variable and lossless rates. -/
  bitRate : Option Nat
  /-- Bits per sample of the recording. -/
  bitDepth : Option Nat
  /-- Whether the header carries a check word. -/
  hasCheckWord : Bool
  /-- Whether the core carries an extension. -/
  hasExtension : Bool
  deriving DecidableEq, Repr, Inhabited

namespace Header

/-- The fields of a core header, as written. -/
structure Fields where
  isNormal : Bool
  hasCheckWord : Bool
  blockField : Nat
  frameSizeField : Nat
  arrangement : Nat
  sampleRateCode : Nat
  rateCode : Nat
  hasExtension : Bool
  lfeCode : Nat
  resolutionCode : Nat

/-- Reads the fields of a core header behind its sync word. -/
def readFields : Bits.Parse Fields := do
  let isNormal ← BitReader.readFlag
  BitReader.skip 5
  let hasCheckWord ← BitReader.readFlag
  let blockField ← BitReader.readBits 7
  let frameSizeField ← BitReader.readBits 14
  let arrangement ← BitReader.readBits 6
  let sampleRateCode ← BitReader.readBits 4
  let rateCode ← BitReader.readBits 5
  BitReader.skip 8
  let hasExtension ← BitReader.readFlag
  BitReader.skip 1
  let lfeCode ← BitReader.readBits 2
  BitReader.skip (if hasCheckWord then 17 else 1)
  BitReader.skip 7
  let resolutionCode ← BitReader.readBits 3
  return {
    isNormal := isNormal
    hasCheckWord := hasCheckWord
    blockField := blockField
    frameSizeField := frameSizeField
    arrangement := arrangement
    sampleRateCode := sampleRateCode
    rateCode := rateCode
    hasExtension := hasExtension
    lfeCode := lfeCode
    resolutionCode := resolutionCode }

/-- The header that fields stand for. -/
def ofFields (fields : Fields) : Except Error Header :=
  let rate := sampleRates.getD fields.sampleRateCode 0
  if !fields.isNormal then .error (.invalidHeader "termination frame")
  else if fields.blockField < leastBlockField then
    .error (.invalidHeader ("NBLKS " ++ toString fields.blockField ++ " too small"))
  else if fields.frameSizeField < leastFrameSizeField then
    .error (.invalidHeader ("FSIZE " ++ toString fields.frameSizeField ++ " too small"))
  else if rate = 0 then .error (.unsupportedSampleRate fields.sampleRateCode)
  else
    match arrangementChannels[fields.arrangement]? with
    | none => .error (.invalidHeader ("user defined AMODE " ++ toString fields.arrangement))
    | some channels =>
        let hasLfe := fields.lfeCode == 1 || fields.lfeCode == 2
        let bitRate := bitRates.getD fields.rateCode 0
        .ok {
          frameSize := fields.frameSizeField + 1
          blocks := fields.blockField + 1
          sampleRate := rate
          arrangement := fields.arrangement
          channels := channels + hasLfe.toNat
          hasLfe := hasLfe
          bitRate := if bitRate = 0 then none else some bitRate
          bitDepth := resolutions.getD fields.resolutionCode none
          hasCheckWord := fields.hasCheckWord
          hasExtension := fields.hasExtension }

/-- The header that the first bytes of `data` spell. The field reader sees all
of `data`. -/
def ofLeadingBytes (data : Bytes) : Except Error Header :=
  let sync := Bytes.toNumber (data.take 4)
  if sync ≠ coreSync then .error (.invalidSyncWord sync)
  else
    match (readFields (BitReader.ofBytes (data.drop 4))).1 with
    | .ok fields => ofFields fields
    | .error error => .error (.bits error)

/-- Parses the header at the start of `data`. -/
def parse (data : Bytes) : Except Error Header :=
  if Bytes.hasAtLeast headerSize data then ofLeadingBytes data
  else .error (.insufficientData headerSize data.length)

/-- Parses the header at the start of `data`, if there is one. -/
def parse? (data : Bytes) : Option Header := (parse data).toOption

/-- Samples of each channel in the frame. -/
def samples (header : Header) : Nat := header.blocks * 32

/-- How long the frame plays. -/
def duration (header : Header) : Option Int :=
  Time.ofSamples? header.samples header.sampleRate

end Header

/-- Reads the size of a substream behind its sync word: a flag tells whether
the two length fields are wide. -/
def readSubstreamSize : Bits.Parse Nat := do
  BitReader.skip 10
  let isWide ← BitReader.readFlag
  BitReader.skip (if isWide then 12 else 8)
  let size ← BitReader.readBits (if isWide then 20 else 16)
  return size + 1

/-- Size of the substream that starts with `data`, its header included. -/
def substreamSize? (data : Bytes) : Option Nat :=
  if !Bytes.hasAtLeast substreamHeaderSize data then none
  else if Bytes.toNumber (data.take 4) ≠ substreamSync then none
  else (readSubstreamSize (BitReader.ofBytes (data.drop 4))).1.toOption

/-- Length of the frame that starts with `data`: the core and a substream
right behind it. None while too few bytes are there to tell. -/
def Header.frameLength? (header : Header) (data : Bytes) : Option Nat :=
  let behind := data.drop header.frameSize
  if !Bytes.hasAtLeast 4 behind then none
  else if Bytes.toNumber (behind.take 4) ≠ substreamSync then some header.frameSize
  else (substreamSize? behind).map (header.frameSize + ·)

end MediaSplit.Dts
