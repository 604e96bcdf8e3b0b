import MediaSplit.Dts.Header

/-!
Contract: looking for DTS headers in arbitrary bytes.

Owns: the first sync word, of a core frame or of a substream, and the first
credible core header.

A header is credible when another sync word stands right behind its core frame
or the bytes end before that place. It is looked for from sync word to sync word;
what is not credible is passed over by one byte, not by its length.
-/

set_option autoImplicit false

namespace MediaSplit.Dts

/-- Whether the bytes start with the sync word of a core frame or a
substream. -/
def startsWithSync (data : Bytes) : Bool :=
  match data with
  | 0x7F :: 0xFE :: 0x80 :: 0x01 :: _ => true
  | 0x64 :: 0x58 :: 0x20 :: 0x25 :: _ => true
  | _ => false

/-- Offset of the first sync word. -/
def findSync? (data : Bytes) : Option Nat :=
  (Bytes.firstSuffix? (fun suffix => if startsWithSync suffix then some () else none) data).map
    (·.1)

/-- The header at the start of `data`, if what follows its frame is credible. -/
def credibleHeader? (data : Bytes) : Option Header :=
  match Header.parse? data with
  | none => none
  | some header =>
      let behind := data.drop header.frameSize
      if !Bytes.hasAtLeast 4 behind || startsWithSync behind then some header else none

/-- The first credible header, with its offset. -/
def findHeader? (data : Bytes) : Option (Nat × Header) :=
  Bytes.firstAmong? findSync? credibleHeader? data

end MediaSplit.Dts
