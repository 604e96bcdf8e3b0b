import MediaSplit.Avc.DecoderConfig

/-!
Contract: the configuration record of an AVC decoder, taken apart.

Owns: `DecoderConfigForm`, the parts of a record, with `DecoderConfigForm.read?`,
and the readers of a unit behind its length and of a counted run of them; and
`DecoderConfigForm.ofSets`, the parts that a record of given parameter sets is
meant to have.

Every reader gives what it has read and the bytes behind it, and answers
nothing where its bytes are cut off.
-/

set_option autoImplicit false

namespace MediaSplit.Avc

/-- The parts of a record. -/
structure DecoderConfigForm where
  version : UInt8
  profile : UInt8
  compatibility : UInt8
  level : UInt8
  /-- Bytes of the length in front of each unit of the stream. -/
  lengthSize : Nat
  sequenceSets : List Bytes
  pictureSets : List Bytes
  deriving DecidableEq, Repr, Inhabited

/-- What the record for these sequence and picture parameter sets is meant to
say. -/
def DecoderConfigForm.ofSets (sequenceSets pictureSets : List Bytes) : DecoderConfigForm :=
  let first := sequenceSets.headD []
  { version := recordVersion
    profile := first.getD 1 0
    compatibility := first.getD 2 0
    level := first.getD 3 0
    lengthSize := 4
    sequenceSets := sequenceSets
    pictureSets := pictureSets }

/-- Reads a unit behind its length. -/
def readUnit? (data : Bytes) : Option (Bytes × Bytes) := do
  let length ← data.numberAt? 0 2
  let behind := data.drop 2
  if Bytes.hasAtLeast length behind then some (behind.take length, behind.drop length) else none

/-- Reads a number of units, each behind its length. -/
def readUnits? : (count : Nat) → Bytes → Option (List Bytes × Bytes)
  | 0, data => some ([], data)
  | count + 1, data => do
      let (unit, data) ← readUnit? data
      let (units, data) ← readUnits? count data
      return (unit :: units, data)

/-- Reads a record. The length size is the low two bits of its byte and one
more; the count of sequence parameter sets has five bits. -/
def DecoderConfigForm.read? (data : Bytes) : Option (DecoderConfigForm × Bytes) :=
  match data with
  | version :: profile :: compatibility :: level :: sizeField :: countField :: data => do
      let (sequenceSets, data) ← readUnits? (countField.toNat % 2 ^ 5) data
      let pictureCount ← data.head?
      let (pictureSets, data) ← readUnits? pictureCount.toNat data.tail
      let form : DecoderConfigForm :=
        ⟨version, profile, compatibility, level, sizeField.toNat % 2 ^ 2 + 1, sequenceSets,
          pictureSets⟩
      return (form, data)
  | _ => none

end MediaSplit.Avc
