import MediaSplit.MpegVideo.SequenceHeader
import MediaSplit.Video.Units

/-!
Contract: finding the sequence header of an MPEG video stream.

Owns: `MpegVideo.Finding`, a header with the bytes that spell it, and the rules
of the search: it is complete where a picture follows a header.

The extensions directly behind a header belong to it. A later header takes the
place of an earlier one, and one that cannot be used leaves none.
-/

set_option autoImplicit false

namespace MediaSplit.MpegVideo

/-- The type byte of a picture. -/
def pictureType : UInt8 := 0x00

/-- The type byte of a sequence header. -/
def headerType : UInt8 := 0xB3

/-- The type byte of an extension. -/
def extensionType : UInt8 := 0xB5

/-- A sequence header and the units that it was read from. -/
structure Finding where
  header : SequenceHeader
  units : Bytes
  /-- Whether an extension that comes next belongs to it. -/
  isOpen : Bool
  deriving DecidableEq, Repr, Inhabited

/-- A unit with its start code. -/
def withStartCode (unit : Bytes) : Bytes := 0 :: 0 :: 1 :: unit

/-- Takes an extension in. -/
def Finding.extend (finding : Finding) (unit : Bytes) : Finding :=
  { finding with
    header := (finding.header.extended? unit.tail).getD finding.header
    units := finding.units ++ withStartCode unit }

/-- What has been found once `unit` has been seen. -/
def takeUnit (finding : Option Finding) (unit : Bytes) : Option Finding :=
  if unit.head? = some headerType then
    (SequenceHeader.parse? unit.tail).map fun header => ⟨header, withStartCode unit, true⟩
  else finding.map fun finding =>
    if unit.head? = some extensionType ∧ finding.isOpen then finding.extend unit
    else { finding with isOpen := false }

/-- The rules of the search. -/
def rules : Units.Rules (Option Finding) :=
  { typeMayBeginCode := false
    endsAt := fun finding type => type == pictureType && finding.isSome
    take := takeUnit
    isEnough := fun _ => false }

end MediaSplit.MpegVideo
