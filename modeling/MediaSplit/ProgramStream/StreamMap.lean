import MediaSplit.ProgramStream.Error
import MediaSplit.Source
import MediaSplit.Track

/-!
Contract: program stream maps, which announce the codec behind a stream id.

Owns: `StreamMap`, the announcements seen so far; `StreamMap.announceBody`,
which takes in one map behind its length field and says what is wrong with it;
and `StreamMap.read`, which takes in one map from its length field on, whatever
is wrong with it.

A map whose length is out of range or that is not yet in force is passed over.
The entries of a map that ends too early count as far as they can be read.
However it goes, the next structure is expected where the length field says.
-/

set_option autoImplicit false

namespace MediaSplit.ProgramStream

/-- Announced codecs by stream id, latest announcement first. -/
structure StreamMap where
  announced : List (Nat × Codec)
  deriving DecidableEq, Repr, Inhabited

namespace StreamMap

/-- Nothing has been announced. -/
def empty : StreamMap := ⟨[]⟩

/-- Whether a map can announce this stream id. -/
def isMapped (id : Nat) : Bool := 0xB0 ≤ id && id ≤ 0xEF

/-- The codec that a stream type stands for. -/
def codecOfType? (streamType : Nat) : Option Codec :=
  match streamType with
  | 0x01 => some .mpeg1Video
  | 0x02 => some .mpeg2Video
  | 0x03 | 0x04 => some .mp2
  | 0x0F | 0x11 => some .aac
  | 0x10 => some .mpeg4Video
  | 0x1B => some .avc
  | 0x81 => some .ac3
  | _ => none

/-- The codec announced for a stream id. -/
def codec? (map : StreamMap) (id : Nat) : Option Codec := map.announced.lookup id

/-- Takes in one entry; unknown types and ids out of range change nothing. -/
def announce (map : StreamMap) (streamType id : Nat) : StreamMap :=
  match codecOfType? streamType with
  | some codec =>
      if isMapped id then ⟨(id, codec) :: map.announced.filter (·.1 != id)⟩ else map
  | none => map

/-- Bytes of an entry before its info. -/
def entryHeadSize : Nat := 4

/-- What is said about a map that the source does not hold to its end. -/
def cutOff : Error := .source .endOfData

/-- Takes in the entries that lie within `remaining` bytes from `offset` on.
Where the source ends before them, those begun before its end have been taken
in. -/
def announceAll (map : StreamMap) (source : Source) (offset remaining : Nat) :
    Except Error Unit × StreamMap :=
  if remaining = 0 then (.ok (), map)
  else
    match source.bytesAt offset entryHeadSize with
    | [streamType, id, high, low] =>
        let size := entryHeadSize + min (Bytes.toNumber [high, low]) remaining
        (map.announce streamType.toNat id.toNat).announceAll source (offset + size)
          (remaining - size)
    | streamType :: id :: _ => (.error cutOff, map.announce streamType.toNat id.toNat)
    | _ => (.error cutOff, map)
termination_by remaining
decreasing_by
  simp only [entryHeadSize]
  omega

/-- The greatest length of a map. -/
def maxLength : Nat := 1018

/-- Bytes that a map has, at the least, besides its program info and its
entries. -/
def fixedSize : Nat := 8

/-- Where the entries start in a map of this length whose bytes start at
`offset`, and how many bytes they take. -/
def entryRange (source : Source) (offset length : Nat) : Except Error (Nat × Nat) :=
  if length = 0 || length > maxLength then
    .error (.invalidMap ("length " ++ toString length ++ " out of range"))
  else
    match source.byteAt? offset with
    | none => .error cutOff
    | some marker =>
        if marker < 0x80 then .error (.invalidMap "current_next_indicator not set")
        else
          match source.numberAt? (offset + 2) 2 with
          | none => .error cutOff
          | some infoSize =>
              match source.numberAt? (offset + 4 + infoSize) 2 with
              | none => .error cutOff
              | some size =>
                  .ok (offset + 6 + infoSize, min size (length - infoSize - fixedSize))

/-- Takes in a map of this length whose bytes start at `offset`. -/
def announceBody (map : StreamMap) (source : Source) (offset length : Nat) :
    Except Error Unit × StreamMap :=
  match entryRange source offset length with
  | .error error => (.error error, map)
  | .ok (start, size) => map.announceAll source start size

/-- Takes in the map whose length field is at `offset`, as far as it can be
read, and says where the map ends; nothing if the length field is cut off. -/
def read (map : StreamMap) (source : Source) (offset : Nat) : Option (Nat × StreamMap) := do
  let length ← source.numberAt? offset 2
  return (offset + 2 + length, (map.announceBody source (offset + 2) length).2)

end StreamMap

end MediaSplit.ProgramStream
