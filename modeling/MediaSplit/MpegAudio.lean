import MediaSplit.Bytes
import MediaSplit.Track

/-!
Contract: frame headers of MPEG audio, layers 1 to 3.

Owns: `MpegAudio.Header`, `Header.ofWord?`, which reads it from a 32-bit word,
and `findHeader?`, which finds the first one in a run of bytes.
-/

set_option autoImplicit false

namespace MediaSplit.MpegAudio

/-- Samples per second for each sampling code of the first version. -/
def baseSampleRates : List Nat := [44100, 48000, 32000]

/-- By what each version divides the base rates; 0 marks the reserved one. -/
def rateDivisors : List Nat := [4, 0, 2, 1]

/-- What a frame header says. -/
structure Header where
  layer : Nat
  /-- Samples per second. -/
  sampleRate : Nat
  channels : Nat
  deriving DecidableEq, Repr, Inhabited

namespace Header

/-- The header that a word spells, if it is one: eleven set bits, and no
reserved version, layer, bit rate or sampling code. -/
def ofWord? (word : Nat) : Option Header := do
  let divisor := rateDivisors.getD (word / 2 ^ 19 % 4) 0
  let layerCode := word / 2 ^ 17 % 4
  let bitRateCode := word / 2 ^ 12 % 16
  let base ← baseSampleRates[word / 2 ^ 10 % 4]?
  guard (word / 2 ^ 21 = 2047 ∧ divisor ≠ 0 ∧ layerCode ≠ 0 ∧ bitRateCode ≠ 15)
  return ⟨4 - layerCode, base / divisor, if word / 2 ^ 6 % 4 = 3 then 1 else 2⟩

/-- The codec that a layer stands for. -/
def codec (header : Header) : Codec :=
  match header.layer with
  | 1 => .mp1
  | 2 => .mp2
  | _ => .mp3

end Header

/-- The first header in some bytes, and where it starts. -/
def findHeader? (data : Bytes) : Option (Nat × Header) :=
  Bytes.firstSuffix? (fun suffix =>
    match suffix with
    | a :: b :: c :: d :: _ => Header.ofWord? (Bytes.toNumber [a, b, c, d])
    | _ => none) data

end MediaSplit.MpegAudio
