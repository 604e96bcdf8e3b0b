import MediaSplit.Dts.Layout
import MediaSplit.Elementary.Reader

/-!
Contract: raw DTS files in any stored layout.

Owns: `Dts.scan`, where frames start in native data; `Dts.Reader`; and the
probe that recognises such a file.

Chunks are converted to the native layout as they come, so packets always
carry native frames. A core frame waits for the bytes that tell whether a
substream follows, except at the end of the input.
-/

set_option autoImplicit false

namespace MediaSplit.Dts

/-- Bytes that a probe looks at; a shorter source is not recognised. -/
def probeSize : Nat := 16384

/-- Length of the frame that starts with `data`, if it can be told now. -/
def decidedLength? (atEnd : Bool) (header : Header) (data : Bytes) : Option Nat :=
  match header.frameLength? data with
  | some length => some length
  | none =>
      if atEnd && Bytes.hasAtLeast header.frameSize data then some header.frameSize else none

/-- What starts at the first byte of native data. Where no header parses, all
bytes before the next sync word are dropped; without one, all but the last
three. -/
def scan (atEnd : Bool) (data : Bytes) : Scan :=
  if Bytes.hasAtLeast headerSize data then
    match Header.parse? data with
    | some header =>
        match decidedLength? atEnd header data with
        | some length => .frame length header.duration 0
        | none => .needMore
    | none =>
        match findSync? data.tail with
        | some distance => .skip (distance + 1)
        | none => .skip (data.length - 3)
  else .needMore

/-- The raw format in one of its layouts. -/
def format (layout : Layout) : Elementary.Format Unit :=
  { granule := layout.granule
    decode := layout.decode
    scan := fun atEnd state data => (scan atEnd data, state)
    keepsOffsets := !layout.isPadded }

/-- A reader of a raw DTS file. -/
structure Reader (σ : Type) where
  layout : Layout
  /-- The first header of the file. -/
  header : Header
  stream : Elementary.Reader σ Unit

namespace Reader

variable {σ : Type}

/-- The only track of a file with this first header. -/
def track (header : Header) : Track :=
  { Track.ofCodec 0 0 .dts with
    params := .audio ⟨header.sampleRate, header.channels, header.bitDepth, none⟩ }

/-- The layout of some stored bytes and the first header in them. -/
def firstHeader? (stored : Bytes) : Option (Layout × Header) := do
  let layout ← Layout.detect? stored
  let (_, header) ← findHeader? (layout.decode stored)
  return (layout, header)

/-- Opens a source, from its start, whatever its position is. -/
def ofSource (source : Source) (chunkSize : Nat) : Except Fault (Reader σ) :=
  let chunkSize := max chunkSize 1
  match firstHeader? (source.bytesAt 0 (max chunkSize probeSize)) with
  | none => .error (.malformedHeader "no DTS header found in the first chunk")
  | some (layout, header) =>
      .ok ⟨layout, header,
        Elementary.Reader.starting (format layout) () (source.movedTo 0) chunkSize none
          [track header]⟩

end Reader

/-- Whether a source is long enough and a credible header shows up in its
first bytes, in some layout. The size is what the caller says it is. -/
def probe (source : Source) (size : Nat) : Bool :=
  let data := source.bytesAt 0 probeSize
  decide (probeSize ≤ size) && decide (data.length = probeSize) && (Layout.detect? data).isSome

end MediaSplit.Dts
