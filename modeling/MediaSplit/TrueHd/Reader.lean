import MediaSplit.Elementary.Reader
import MediaSplit.Id3
import MediaSplit.TrueHd.Survey

/-!
Contract: raw TrueHD and MLP files.

Owns: `TrueHd.Reader` and the probe that recognises such a file.

Track 0 is the TrueHD or MLP stream. Where AC-3 frames are found between its
units while opening, they are track 1. Tags around the stream are no part of
it.
-/

set_option autoImplicit false

namespace MediaSplit.TrueHd

/-- Bytes that a probe looks at, and the chunk size of a reader whose caller
names none. -/
def windowSize : Nat := 1024 * 1024

/-- The raw format. -/
def format : Elementary.Format Classifier :=
  { granule := 1
    decode := id
    scan := fun _ classifier data => classifier.scan data
    keepsOffsets := true }

/-- A reader of a raw TrueHD or MLP file. -/
structure Reader (σ : Type) where
  /-- Offset of the first byte behind the stream. -/
  dataEnd : Nat
  stream : Elementary.Reader σ Classifier

namespace Reader

variable {σ : Type}

/-- The track of a unit. -/
def track (number : Nat) (frame : Frame) : Track :=
  { Track.ofCodec number number frame.codec with
    params := .audio ⟨frame.sampleRate, frame.channels, frame.bitDepth, none⟩ }

/-- The tracks of a survey that found this major sync unit. -/
def tracks (sync : Frame) (ac3 : Option Frame) : List Track :=
  track 0 sync :: (ac3.map (track 1)).toList

/-- Opens a source, from its start, whatever its position is. -/
def ofSource (source : Source) (chunkSize : Nat) : Except Fault (Reader σ) :=
  let dataStart := Id3.leadingTagSize source
  let dataEnd := max (source.size - Id3.trailingTagSize source) dataStart
  let window := source.bytesAt dataStart (min (dataEnd - dataStart) windowSize)
  let survey := Survey.ofBytes window
  match survey.firstSync with
  | none => .error (.malformedHeader "no TrueHD or MLP major sync found in the first chunk")
  | some (_, sync) =>
      .ok ⟨dataEnd,
        Elementary.Reader.starting format .initial (source.movedTo dataStart) (max chunkSize 1)
          (some dataEnd) (tracks sync survey.firstAc3)⟩

end Reader

/-- Whether the bytes behind a leading tag hold a usable stream. -/
def probe (source : Source) : Bool :=
  (Survey.ofBytes (source.bytesAt (Id3.leadingTagSize source) windowSize)).isValid

end MediaSplit.TrueHd
