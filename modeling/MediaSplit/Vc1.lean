import MediaSplit.Bits.Reader
import MediaSplit.Track
import MediaSplit.Video.Units

/-!
Contract: sequence headers of VC-1 video, advanced profile.

Owns: `Vc1.SequenceHeader`, a header with the bytes that spell it, and the
rules of the search for the first one.
-/

set_option autoImplicit false

namespace MediaSplit.Vc1

/-- The type byte of a sequence header. -/
def headerType : UInt8 := 0x0F

/-- The only profile whose headers give a size. -/
def advancedProfile : Nat := 3

/-- What a sequence header says. -/
structure SequenceHeader where
  width : Nat
  height : Nat
  /-- The header with its start code. -/
  bytes : Bytes
  deriving DecidableEq, Repr, Inhabited

namespace SequenceHeader

/-- Reads the greatest coded width and height, each stored as half of it less
one; none in another profile. -/
def readSize : Bits.Parse (Option (Nat × Nat)) := do
  if (← BitReader.readBits 2) ≠ advancedProfile then return none
  BitReader.skip 14
  let width ← BitReader.readBits 12
  let height ← BitReader.readBits 12
  return some ((width + 1) * 2, (height + 1) * 2)

/-- The header in a unit, if it is one. -/
def ofUnit? (unit : Bytes) : Option SequenceHeader := do
  guard (unit.head? = some headerType)
  let (width, height) ← (readSize (BitReader.ofBytes unit.tail)).1.toOption.join
  return ⟨width, height, 0 :: 0 :: 1 :: unit⟩

/-- The parameters of a track with this header. -/
def params (header : SequenceHeader) : CodecParams :=
  .video ⟨0, header.width, header.height, header.width, header.height, none, none⟩

end SequenceHeader

/-- The rules of the search. -/
def rules : Units.Rules (Option SequenceHeader) :=
  { typeMayBeginCode := true
    endsAt := fun _ _ => false
    take := fun found unit => found.or (SequenceHeader.ofUnit? unit)
    isEnough := Option.isSome }

end MediaSplit.Vc1
