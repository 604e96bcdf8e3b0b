import MediaSplit.Ac3.Header

/-!
Contract: looking for AC-3 headers in arbitrary bytes.

Owns: the first sync word, the first header, and the first header that starts
a chain of headers back to back.

A header is looked for from sync word to sync word, and a chain from header to
header. What fails is passed over by one byte, not by its length.
-/

set_option autoImplicit false

namespace MediaSplit.Ac3

/-- Whether the bytes start with the sync word. -/
def startsWithSync (data : Bytes) : Bool :=
  match data with
  | 0x0B :: 0x77 :: _ => true
  | _ => false

/-- Offset of the first sync word. -/
def findSync? (data : Bytes) : Option Nat :=
  (Bytes.firstSuffix? (fun suffix => if startsWithSync suffix then some () else none) data).map
    (·.1)

/-- Offset of the first sync word, unless `data` is too short for a header. -/
def headerCandidate? (data : Bytes) : Option Nat :=
  if Bytes.hasAtLeast headerSize data then findSync? data else none

/-- The first header, with its offset. -/
def findHeader? (data : Bytes) : Option (Nat × Header) :=
  Bytes.firstAmong? headerCandidate? Header.parse? data

/-- Whether `count` headers follow each other, each one frame length behind
the one before. -/
def startsChain : (count : Nat) → Bytes → Bool
  | 0, _ => true
  | count + 1, data =>
      match Header.parse? data with
      | some header => startsChain count (data.drop header.frameSize)
      | none => false

/-- The header at the start of `data`, if it starts a chain of `count`
headers; a count of zero asks for one header too. -/
def chainHead? (count : Nat) (data : Bytes) : Option Header :=
  if startsChain (max count 1) data then Header.parse? data else none

/-- The first header that starts a chain of `count` headers. -/
def findChain? (count : Nat) (data : Bytes) : Option (Nat × Header) :=
  Bytes.firstAmong? (fun rest => (findHeader? rest).map (·.1)) (chainHead? count) data

end MediaSplit.Ac3
