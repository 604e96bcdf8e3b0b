import MediaSplit.Bits.Reader
import MediaSplit.Track

/-!
Contract: sequence headers of MPEG-1 and MPEG-2 video.

Owns: `SequenceHeader` with `parse?`, the sequence extension that turns a
header into one of MPEG-2, and the frame rate, the aspect ratio and the
displayed size that follow from its codes.

MPEG-1 codes give the shape of a pixel, MPEG-2 codes the shape of the picture.
-/

set_option autoImplicit false

namespace MediaSplit.MpegVideo

/-- Frames per second for each frame rate code; the first code is not used. -/
def frameRates : List Float :=
  [0.0, 24000.0 / 1001.0, 24.0, 25.0, 30000.0 / 1001.0, 30.0, 50.0, 60000.0 / 1001.0, 60.0]

/-- Height over width of a pixel for each MPEG-1 aspect code; the first code
is not used. -/
def pixelShapes : List Float :=
  [0.0, 1.0, 0.6735, 0.7031, 0.7615, 0.8055, 0.8437, 0.8935, 0.9157, 0.9815, 1.0255, 1.0695,
    1.0950, 1.1575, 1.2015]

/-- The id of the sequence extension among all extensions. -/
def sequenceExtensionId : Nat := 1

/-- What a sequence header and its extension say. -/
structure SequenceHeader where
  width : Nat
  height : Nat
  aspectCode : Nat
  frameRateCode : Nat
  /-- 2 once there has been a sequence extension. -/
  version : Nat
  /-- One less than the numerator of the factor to the frame rate. -/
  rateNumerator : Nat
  /-- One less than its denominator. -/
  rateDenominator : Nat
  deriving DecidableEq, Repr, Inhabited

namespace SequenceHeader

/-- Reads the fields behind the start code of a header. -/
def readFields : Bits.Parse SequenceHeader := do
  let width ← BitReader.readBits 12
  let height ← BitReader.readBits 12
  let aspectCode ← BitReader.readBits 4
  let frameRateCode ← BitReader.readBits 4
  return ⟨width, height, aspectCode, frameRateCode, 1, 0, 0⟩

/-- The header behind a start code; none without a size or an aspect. -/
def parse? (data : Bytes) : Option SequenceHeader := do
  let header ← (readFields (BitReader.ofBytes data)).1.toOption
  guard (header.width ≠ 0 ∧ header.height ≠ 0 ∧ header.aspectCode ≠ 0)
  return header

/-- Reads a sequence extension, which adds high bits to the size; none for
another extension. -/
def readExtension (header : SequenceHeader) : Bits.Parse (Option SequenceHeader) := do
  if (← BitReader.readBits 4) ≠ sequenceExtensionId then return none
  BitReader.skip 11
  let widthBits ← BitReader.readBits 2
  let heightBits ← BitReader.readBits 2
  BitReader.skip 22
  let rateNumerator ← BitReader.readBits 2
  let rateDenominator ← BitReader.readBits 5
  return some { header with
    width := header.width ||| widthBits * 2 ^ 12
    height := header.height ||| heightBits * 2 ^ 12
    version := 2
    rateNumerator := rateNumerator
    rateDenominator := rateDenominator }

/-- The header with the extension behind another start code, if that is a
complete sequence extension. -/
def extended? (header : SequenceHeader) (data : Bytes) : Option SequenceHeader :=
  (header.readExtension (BitReader.ofBytes data)).1.toOption.join

/-- Frames per second, if the code is a valid one. -/
def frameRate (header : SequenceHeader) : Option Float :=
  if header.frameRateCode = 0 then none
  else (frameRates[header.frameRateCode]?).map fun base =>
    base * Float.ofNat (header.rateNumerator + 1) / Float.ofNat (header.rateDenominator + 1)

/-- Width over height of the displayed picture; none where pixels are square
or the code says nothing. -/
def aspectRatio (header : SequenceHeader) : Option Float :=
  if header.version = 2 then
    match header.aspectCode with
    | 2 => some (4.0 / 3.0)
    | 3 => some (16.0 / 9.0)
    | 4 => some 2.21
    | _ => none
  else if header.aspectCode ≤ 1 then none
  else (pixelShapes[header.aspectCode]?).map fun shape =>
    Float.ofNat header.width / (Float.ofNat header.height * shape)

/-- Width and height of the displayed picture, the width toward zero. -/
def displaySize (header : SequenceHeader) : Nat × Nat :=
  match header.aspectRatio with
  | some aspect =>
      if aspect > 0.0 && aspect != 1.0 then
        ((Float.ofNat header.height * aspect).toUInt32.toNat, header.height)
      else (header.width, header.height)
  | none => (header.width, header.height)

/-- The parameters of a track with this header. -/
def params (header : SequenceHeader) : CodecParams :=
  let (displayWidth, displayHeight) := header.displaySize
  .video ⟨header.version, header.width, header.height, displayWidth, displayHeight,
    header.frameRate, header.aspectRatio⟩

/-- The codec of a track with this header. -/
def codec (header : SequenceHeader) : Codec :=
  if header.version = 2 then .mpeg2Video else .mpeg1Video

end SequenceHeader

end MediaSplit.MpegVideo
