import MediaSplit.Ac3.Search
import MediaSplit.Elementary.Reader

/-!
Contract: raw AC-3 and E-AC-3 files.

Owns: `Ac3.scan`, where frames start in raw data; `Ac3.Reader`; and the probe
that recognises such a file.

There is one packet for each sync frame, with its duration; the timecode is
left to whoever places the packets in time.
-/

set_option autoImplicit false

namespace MediaSplit.Ac3

/-- Bytes that a probe looks at. -/
def probeSize : Nat := 4096

/-- What starts at the first byte of raw data. Where no header parses, all
bytes before the next sync word are dropped; without one, all but the last. -/
def scan (data : Bytes) : Scan :=
  if Bytes.hasAtLeast headerSize data then
    match Header.parse? data with
    | some header => .frame header.frameSize header.duration 0
    | none =>
        match findSync? data.tail with
        | some distance => .skip (distance + 1)
        | none => .skip (data.length - 1)
  else .needMore

/-- The raw format. -/
def format : Elementary.Format Unit :=
  { granule := 1
    decode := id
    scan := fun _ state data => (scan data, state)
    keepsOffsets := true }

/-- A reader of a raw AC-3 file. -/
structure Reader (σ : Type) where
  /-- The first header of the file. -/
  header : Header
  stream : Elementary.Reader σ Unit

namespace Reader

variable {σ : Type}

/-- The only track of a file with this first header. -/
def track (header : Header) : Track :=
  { Track.ofCodec 0 0 header.codec with
    params := .audio ⟨header.sampleRate, header.channels, none, some header.bitstreamId⟩ }

/-- Opens a source, from its start, whatever its position is. -/
def ofSource (source : Source) (chunkSize : Nat) : Except Fault (Reader σ) :=
  let chunkSize := max chunkSize 1
  match findHeader? (source.bytesAt 0 (max chunkSize probeSize)) with
  | none => .error (.malformedHeader "no AC-3 header found in the first chunk")
  | some (_, header) =>
      .ok ⟨header,
        Elementary.Reader.starting format () (source.movedTo 0) chunkSize none [track header]⟩

end Reader

/-- Whether a source starts with a header and, where that is within the bytes
looked at, has a sync word right behind the first frame. -/
def probe (source : Source) : Bool :=
  let data := source.bytesAt 0 probeSize
  match Header.parse? data with
  | none => false
  | some header =>
      let behind := data.drop header.frameSize
      !Bytes.hasAtLeast 2 behind || startsWithSync behind

end MediaSplit.Ac3
