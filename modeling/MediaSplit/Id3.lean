import MediaSplit.Source

/-!
Contract: the ID3 tags around a raw audio stream.

Owns: `Id3.skipLeadingTag`, which steps over a tag at the start of a source,
and `Id3.trailingTagSize`, the size of a tag at its end.

A version 2 tag has ten header bytes with a magic word, two version bytes that
are never 255, flags, and a size of four 7-bit digits; a flag adds ten footer
bytes. A version 1 tag is the last 128 bytes of a file.
-/

set_option autoImplicit false

namespace MediaSplit.Id3

/-- Bytes of the header of a version 2 tag, and of its footer. -/
def headerSize : Nat := 10

/-- Bytes of a version 1 tag. -/
def oldTagSize : Nat := 128

/-- Magic word of a version 1 tag: "TAG". -/
def oldMagic : Bytes := [0x54, 0x41, 0x47]

/-- Magic word of a version 2 header: "ID3". -/
def headerMagic : Bytes := [0x49, 0x44, 0x33]

/-- Magic word of a version 2 footer: "3DI". -/
def footerMagic : Bytes := [0x33, 0x44, 0x49]

/-- The number that 7-bit digits spell, if every top bit is clear. -/
def sevenBitNumber? (digits : Bytes) : Option Nat :=
  if digits.all (· < 0x80) then
    some (digits.foldl (fun value digit => value * 128 + digit.toNat) 0)
  else none

/-- Size of the tag that a header or footer with this magic word describes. -/
def describedSize? (magic : Bytes) (header : Bytes) : Option Nat :=
  match header with
  | [m0, m1, m2, major, minor, flags, d0, d1, d2, d3] =>
      if [m0, m1, m2] ≠ magic ∨ major = 0xFF ∨ minor = 0xFF then none
      else
        let footer := if flags &&& 0x10 ≠ 0 then headerSize else 0
        (sevenBitNumber? [d0, d1, d2, d3]).map fun body => headerSize + body + footer
  | _ => none

/-- Size of the version 2 tag at the start of a source, 0 without one. -/
def leadingTagSize (source : Source) : Nat :=
  (describedSize? headerMagic (source.bytesAt 0 headerSize)).getD 0

/-- Size of the version 1 tag at the end of a source. -/
def oldTagSize? (source : Source) : Option Nat :=
  if oldTagSize ≤ source.size ∧ source.bytesAt (source.size - oldTagSize) 3 = oldMagic then
    some oldTagSize
  else none

/-- Size of the version 2 tag at the end of a source, found by its footer. A
tag larger than the source is none. -/
def footerTagSize? (source : Source) : Option Nat :=
  if headerSize ≤ source.size then
    (describedSize? footerMagic (source.bytesAt (source.size - headerSize) headerSize)).filter
      (· ≤ source.size)
  else none

/-- Size of the tag at the end of a source, 0 without one. -/
def trailingTagSize (source : Source) : Nat :=
  ((oldTagSize? source).or (footerTagSize? source)).getD 0

/-- Moves behind a tag at the start, or to the start where there is none; the
size of the tag is the new position. -/
def skipLeadingTag {ε : Type} : Source.Action ε Nat := do
  let size := leadingTagSize (← get)
  Source.seekTo size
  return size

end MediaSplit.Id3
