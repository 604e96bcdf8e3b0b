import MediaSplit.Bytes

/-!
Contract: the configuration record of an AVC decoder.

Owns: `Avc.decoderConfig`, which writes the record from whole parameter set
units.

The record repeats the three bytes behind the type byte of the first sequence
parameter set and announces lengths of four bytes. Counts and lengths that are
too great lose their high bits.
-/

set_option autoImplicit false

namespace MediaSplit.Avc

/-- Version of the record. -/
def recordVersion : UInt8 := 1

/-- The record for these sequence and picture parameter sets. -/
def decoderConfig (sequenceSets pictureSets : List Bytes) : Bytes :=
  let first := sequenceSets.headD []
  [recordVersion, first.getD 1 0, first.getD 2 0, first.getD 3 0, 0xFF,
      UInt8.ofNat (0xE0 + sequenceSets.length % 32)]
    ++ sequenceSets.flatMap (Bytes.withLength 2)
    ++ [UInt8.ofNat pictureSets.length]
    ++ pictureSets.flatMap (Bytes.withLength 2)

end MediaSplit.Avc
