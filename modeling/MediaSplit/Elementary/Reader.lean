import MediaSplit.Framing
import MediaSplit.ReadStatus
import MediaSplit.Sink.Table
import MediaSplit.Source
import MediaSplit.Track

/-!
Contract: reading a raw elementary stream, chunk by chunk, into packets.

Owns:
- `Elementary.Format`, what a raw format brings along: how stored bytes become
  native ones, and what stands at the start of native bytes;
- `Elementary.Reader` with `read`, one chunk of work, and `finish`, which hands
  out the tail and flushes the sinks.

Does **not** own: finding the stream. Each format opens its readers itself.

A reader is marked as done before the tail is delivered, so a sink that refuses
the tail or the flush is not asked again. Packets behind a refused one are
lost.
-/

set_option autoImplicit false

namespace MediaSplit.Elementary

/-- Chunk size of a reader whose caller names none. -/
def defaultChunkSize : Nat := 16 * 1024

/-- The rules of one raw format, with a classifier state of type `τ`. -/
structure Format (τ : Type) where
  /-- Stored bytes are converted in multiples of this. -/
  granule : Nat
  /-- Native bytes of a chunk of stored ones. -/
  decode : Bytes → Bytes
  /-- What starts at the first byte; the flag says that no byte follows. -/
  scan : Bool → τ → Bytes → Scan × τ
  /-- Whether offsets of native bytes are offsets in the source. -/
  keepsOffsets : Bool

/-- A reader of one raw stream, with sinks of type `σ`. -/
structure Reader (σ τ : Type) where
  format : Format τ
  source : Source
  /-- Bytes wanted from each chunk. -/
  chunkSize : Nat
  /-- Where the stream ends, if that is before the end of the source. -/
  streamEnd : Option Nat
  tracks : List Track
  sinks : SinkTable σ
  assembler : FrameAssembler
  classifier : τ
  /-- Whether the tail has been handed out. -/
  isDone : Bool

namespace Reader

variable {σ τ : Type}

/-- A reader that starts at the position of `source`. -/
def starting
    (format : Format τ)
    (classifier : τ)
    (source : Source)
    (chunkSize : Nat)
    (streamEnd : Option Nat)
    (tracks : List Track) : Reader σ τ :=
  { format := format
    source := source
    chunkSize := chunkSize
    streamEnd := streamEnd
    tracks := tracks
    sinks := SinkTable.ofTracks tracks.length
    assembler := FrameAssembler.startingAt source.position
    classifier := classifier
    isDone := false }

/-- Routes the packets of a track to `sink`. -/
def attach (reader : Reader σ τ) (track : Nat) (sink : σ) : Except Fault Unit × Reader σ τ :=
  let (outcome, sinks) := reader.sinks.attach track sink
  (outcome, { reader with sinks := sinks })

/-- Share of the source that has been read, in percent. -/
def progress (reader : Reader σ τ) : Nat :=
  if reader.source.size = 0 then 100
  else reader.source.position * 100 / reader.source.size

/-- Bytes to ask for next: a whole number of granules, at least one, and none
behind the end of the stream. -/
def wanted (reader : Reader σ τ) : Nat :=
  let chunk := max (reader.chunkSize / reader.format.granule) 1 * reader.format.granule
  match reader.streamEnd with
  | none => chunk
  | some streamEnd => min chunk (streamEnd - reader.source.position)

/-- Whether the position has reached a known end of the stream. -/
def hasReachedEnd (reader : Reader σ τ) : Bool :=
  reader.streamEnd.any (· ≤ reader.source.position)

variable [PacketSink σ]

/-- A packet as sinks see it: without an offset where offsets mean nothing. -/
def located (reader : Reader σ τ) (packet : Packet) : Packet :=
  if reader.format.keepsOffsets then packet else { packet with position := none }

/-- Cuts complete frames and delivers them. -/
def deliverFrames (reader : Reader σ τ) (atEnd : Bool) : Reply (Reader σ τ) :=
  let (packets, classifier, assembler) :=
    reader.assembler.cut (reader.format.scan atEnd) reader.classifier
  let (reply, sinks) := reader.sinks.deliverAll (packets.toList.map reader.located)
  (reply, { reader with sinks := sinks, assembler := assembler, classifier := classifier })

/-- Delivers whatever is left as one packet of track 0. -/
def deliverRest (reader : Reader σ τ) : Reply (Reader σ τ) :=
  let (rest, assembler) := reader.assembler.takeRest 0
  let (reply, sinks) := reader.sinks.deliverAll rest.toList
  (reply, { reader with sinks := sinks, assembler := assembler })

/-- Flushes the sinks. -/
def flush (reader : Reader σ τ) : Reply (Reader σ τ) :=
  let (reply, sinks) := reader.sinks.flushAll
  (reply, { reader with sinks := sinks })

/-- Delivers the last frames and the tail, and flushes the sinks. Does nothing
the second time. -/
def finish (reader : Reader σ τ) : Step (Reader σ τ) :=
  if reader.isDone then (.ok .done, reader)
  else
    match ({ reader with isDone := true }).deliverFrames true with
    | (.error fault, reader) => (.error fault, reader)
    | (.ok (), reader) =>
        match reader.deliverRest with
        | (.error fault, reader) => (.error fault, reader)
        | (.ok (), reader) =>
            match reader.flush with
            | (.error fault, reader) => (.error fault, reader)
            | (.ok (), reader) => (.ok .done, reader)

/-- The chunk at the read position, and the reader that has taken it in. -/
def takeChunk (reader : Reader σ τ) : Nat × Reader σ τ :=
  let chunk := reader.source.bytesAt reader.source.position reader.wanted
  (chunk.length,
    { reader with
      source := reader.source.movedTo (reader.source.position + chunk.length)
      assembler := reader.assembler.push (reader.format.decode chunk) })

/-- Reads one chunk and delivers its frames; a chunk that is not full is the
last one. -/
def read (reader : Reader σ τ) : Step (Reader σ τ) :=
  if reader.isDone then (.ok .done, reader)
  else
    let wanted := reader.wanted
    match reader.takeChunk with
    | (0, reader) => reader.finish
    | (count, reader) =>
        match reader.deliverFrames false with
        | (.error fault, reader) => (.error fault, reader)
        | (.ok (), reader) =>
            if count < wanted || reader.hasReachedEnd then reader.finish
            else (.ok .moreData, reader)

end Reader

end MediaSplit.Elementary
