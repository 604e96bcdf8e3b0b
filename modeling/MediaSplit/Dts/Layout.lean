import MediaSplit.Dts.Search

/-!
Contract: the four layouts in which DTS is stored.

Owns:
- `Dts.Layout`, with the conversion into the native layout;
- the packing of 14 native bytes into eight words of 14 bits, `toPadded`, and
  its inverse `toNative`;
- `Layout.detect?`, the first layout in which a credible header shows up.

The native layout is a run of bytes. A padded word of 16 bits carries 14 of
them as a signed number, so its two top bits repeat bit 13. Either form may be
stored with the bytes of each word swapped. Only whole blocks are converted.
-/

set_option autoImplicit false

namespace MediaSplit.Dts

/-- Bytes of eight padded words. -/
def paddedBlock : Nat := 16

/-- Native bytes in a padded block. -/
def nativeBlock : Nat := 14

/-- Swaps the bytes of every 16-bit word; an odd last byte stays. -/
def swapBytes (data : Bytes) : Bytes :=
  let (words, rest) := Bytes.blocks 2 data
  words.flatMap List.reverse ++ rest

/-- The number that the low 14 bits of padded words spell. -/
def payloadOfWords (words : List Bytes) : Nat :=
  words.foldl (fun value word => value * 2 ^ 14 + Bytes.toNumber word % 2 ^ 14) 0

/-- Native bytes of one padded block. -/
def nativeOfPadded (block : Bytes) : Bytes :=
  Bytes.ofNumber nativeBlock (payloadOfWords (Bytes.blocks 2 block).1)

/-- Native bytes of the whole padded blocks. -/
def toNative (data : Bytes) : Bytes :=
  (Bytes.blocks paddedBlock data).1.flatMap nativeOfPadded

/-- The padded word of 14 bits: bit 13 fills the two bits above it. -/
def paddedWord (payload : Nat) : Nat :=
  if 2 ^ 13 ≤ payload then 3 * 2 ^ 14 + payload else payload

/-- Padded words of one native block. -/
def paddedOfNative (block : Bytes) : Bytes :=
  let value := Bytes.toNumber block
  (List.range 8).flatMap fun index =>
    Bytes.ofNumber 2 (paddedWord (value / 2 ^ (14 * (7 - index)) % 2 ^ 14))

/-- Padded words of the whole native blocks. -/
def toPadded (data : Bytes) : Bytes :=
  (Bytes.blocks nativeBlock data).1.flatMap paddedOfNative

/-- A stored layout. -/
structure Layout where
  /-- The bytes of each word are swapped. -/
  isSwapped : Bool
  /-- Each word carries 14 bits. -/
  isPadded : Bool
  deriving DecidableEq, Repr, Inhabited

namespace Layout

/-- All layouts, in the order in which they are tried. -/
def all : List Layout := [⟨false, false⟩, ⟨true, false⟩, ⟨false, true⟩, ⟨true, true⟩]

/-- Whether stored bytes are native already. -/
def isNative (layout : Layout) : Bool := !layout.isSwapped && !layout.isPadded

/-- Stored bytes are converted in multiples of this. -/
def granule (layout : Layout) : Nat :=
  if layout.isPadded then paddedBlock else if layout.isSwapped then 2 else 1

/-- Native bytes of stored ones; bytes behind the last whole granule are
dropped. -/
def decode (layout : Layout) (stored : Bytes) : Bytes :=
  let usable := stored.take (stored.length / layout.granule * layout.granule)
  let ordered := if layout.isSwapped then swapBytes usable else usable
  if layout.isPadded then toNative ordered else ordered

/-- Stored bytes of native ones, whole blocks only where words are padded. -/
def encode (layout : Layout) (native : Bytes) : Bytes :=
  let words := if layout.isPadded then toPadded native else native
  if layout.isSwapped then swapBytes words else words

/-- The number of native bytes of `count` stored ones. -/
def decodedLength (layout : Layout) (count : Nat) : Nat :=
  let usable := count / layout.granule * layout.granule
  if layout.isPadded then usable / paddedBlock * nativeBlock else usable

/-- The first layout in which a credible header shows up. -/
def detect? (stored : Bytes) : Option Layout :=
  all.find? fun layout => (findHeader? (layout.decode stored)).isSome

/-- The layout in words. -/
def describe (layout : Layout) : String :=
  (if layout.isPadded then "14" else "16") ++ "-bit words, "
    ++ (if layout.isSwapped then "little" else "big") ++ " endian"

end Layout

end MediaSplit.Dts
