import MediaSplit.Id3

/-!
Contract: ID3 tags as they are written around a raw audio stream.

Owns: `Id3.Tag`, a version 2 tag at the start of a file, with `Tag.toBytes`, and
`Id3.IsTrailer`, what may stand behind the stream.

Does **not** own: finding tags in a source (`MediaSplit.Id3`).

A tag carries the proofs that it can be written: its size fits four 7-bit digits,
and it has a footer exactly where a flag says so.
-/

set_option autoImplicit false

namespace MediaSplit.Id3

/-- A number in 7-bit digits, high ones first; higher digits are dropped. -/
def sevenBitDigits : (count : Nat) → Nat → Bytes
  | 0, _ => []
  | count + 1, number =>
      sevenBitDigits count (number / 128) ++ [UInt8.ofNat (number % 128)]

/-- Whether some flags say that a tag has a footer. -/
def hasFooter (flags : UInt8) : Prop := flags &&& 0x10 ≠ 0

instance (flags : UInt8) : Decidable (hasFooter flags) := inferInstanceAs (Decidable (_ ≠ _))

/-- A version 2 tag at the start of a file. -/
structure Tag where
  major : UInt8
  minor : UInt8
  flags : UInt8
  body : Bytes
  footer : Bytes
  major_ne : major ≠ 0xFF
  minor_ne : minor ≠ 0xFF
  length_body_lt : body.length < 128 ^ 4
  length_footer : footer.length = if hasFooter flags then 10 else 0

namespace Tag

/-- The first ten bytes of a tag. -/
def header (tag : Tag) : Bytes :=
  headerMagic ++ [tag.major, tag.minor, tag.flags] ++ sevenBitDigits 4 tag.body.length

/-- The tag as written. -/
def toBytes (tag : Tag) : Bytes := tag.header ++ tag.body ++ tag.footer

end Tag

/-- Whether some bytes are nothing or a version 1 tag. -/
def IsTrailer (bytes : Bytes) : Prop :=
  bytes = [] ∨ ∃ fields : Bytes, fields.length = 125 ∧ bytes = oldMagic ++ fields

/-- Whether no part of some bytes could be taken for a tag at their start or their
end. -/
structure IsUntagged (bytes : Bytes) : Prop where
  long : 128 ≤ bytes.length
  noHeader : bytes.take 3 ≠ headerMagic
  noOldTag : (bytes.drop (bytes.length - 128)).take 3 ≠ oldMagic
  noFooter : (bytes.drop (bytes.length - 10)).take 3 ≠ footerMagic

end MediaSplit.Id3
