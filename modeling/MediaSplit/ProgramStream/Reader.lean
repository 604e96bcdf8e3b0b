import MediaSplit.ProgramStream.Discovery
import MediaSplit.ProgramStream.GatherBuffer
import MediaSplit.ReadStatus
import MediaSplit.Sink.Table

/-!
Contract: reading a program stream into the packets of its tracks.

Owns: `Config`, how a program is read; `Reader` with `read`, which sends the
next payload that a sink wants, and `finish`, which sends what is gathered and
flushes the sinks; and the probe that recognises a program.

A reader is marked as done before it finishes, so a sink that refuses the last
packets or the flush is not asked again. Packets behind a refused one are
lost.
-/

set_option autoImplicit false

namespace MediaSplit.ProgramStream

/-- How a program is read. -/
structure Config where
  /-- Bytes at the start that are searched for streams. -/
  window : Nat
  /-- Whether video payloads are gathered into larger packets. -/
  gathers : Bool
  /-- Whether packets have the timestamps of the program. -/
  hasTimecodes : Bool
  deriving DecidableEq, Repr, Inhabited

/-- How a program is read whose reader is told nothing. -/
def Config.standard : Config := ⟨1024 * 1024, true, true⟩

/-- The packet that a payload becomes on its own. -/
def Delivery.packet (delivery : Delivery) (timecode : Option Int) : Packet :=
  { Packet.ofPayload delivery.payload with
    track := delivery.track
    timecode := timecode
    position := some delivery.offset }

/-- A reader of a program, with sinks of type `σ`. -/
structure Reader (σ : Type) where
  walk : Navigator
  config : Config
  registry : Registry
  tracks : List Track
  sinks : SinkTable σ
  /-- What is gathered for each track that gathers. -/
  buffers : List (Option GatherBuffer)
  /-- Whether the reader has finished. -/
  isDone : Bool

namespace Reader

variable {σ : Type}

/-- The empty buffer of a track, if it gathers. -/
def bufferOf (config : Config) (number : Nat) (stream : Stream) : Option GatherBuffer :=
  if config.gathers then stream.finding.bufferCapacity.map (GatherBuffer.empty number) else none

/-- A reader of the streams in a registry, which have become these tracks. -/
def ofRegistry (config : Config) (registry : Registry) (walk : Navigator) (tracks : List Track) :
    Reader σ :=
  { walk := walk
    config := config
    registry := registry
    tracks := tracks
    sinks := .ofTracks registry.streams.length
    buffers := registry.streams.mapIdx (bufferOf config)
    isDone := false }

/-- Opens a program, from the start of the source, whatever its position is. -/
def ofSource (source : Source) (config : Config) : Except Fault (Reader σ) :=
  match source.numberAt? 0 4 with
  | none => .error (.source .endOfData)
  | some word =>
      if word = packStartCode then
        match discover source config.window with
        | .ok (registry, walk) => registry.tracks.map (ofRegistry config registry walk)
        | .error error => .error error.toFault
      else .error (Error.notProgramStream word).toFault

/-- The version of the program. -/
def version (reader : Reader σ) : Version := reader.walk.version.getD .mpeg2

/-- What kind of program it is, in words. -/
def formatName (reader : Reader σ) : String :=
  "MPEG " ++ toString reader.version.number ++ " program stream (PS)"

/-- Routes the packets of a track to `sink`. -/
def attach (reader : Reader σ) (track : Nat) (sink : σ) : Except Fault Unit × Reader σ :=
  let (outcome, sinks) := reader.sinks.attach track sink
  (outcome, { reader with sinks := sinks })

/-- The track of this key, if a sink is attached to it. -/
def wantedTrack (reader : Reader σ) (key : Nat) : Option Nat :=
  (reader.registry.index? key).filter reader.sinks.isAttached

/-- The timecode of the packet that a payload becomes. -/
def timecodeOf (reader : Reader σ) (delivery : Delivery) : Except Fault (Option Int) :=
  if reader.config.hasTimecodes then reader.registry.relative delivery.timestamp else .ok none

/-- The packets that a payload with this timecode makes ready, and the reader that
has taken it in. -/
def gather (reader : Reader σ) (delivery : Delivery) (timecode : Option Int) :
    List Packet × Reader σ :=
  match (reader.buffers[delivery.track]?).join with
  | none => ([delivery.packet timecode], reader)
  | some buffer =>
      let (ready, buffer) := buffer.push delivery.payload timecode delivery.offset
      (ready, { reader with buffers := reader.buffers.set delivery.track (some buffer) })

/-- Takes everything that is gathered, in the order of tracks. -/
def takeGathered (reader : Reader σ) : List Packet × Reader σ :=
  let taken := reader.buffers.map fun slot =>
    match slot with
    | some buffer => (buffer.take.1, some buffer.take.2)
    | none => (none, none)
  (taken.filterMap (·.1), { reader with buffers := taken.map (·.2) })

variable [PacketSink σ]

/-- Sends packets to their sinks. -/
def send (reader : Reader σ) (packets : List Packet) : Reply (Reader σ) :=
  let (reply, sinks) := reader.sinks.deliverAll packets
  (reply, { reader with sinks := sinks })

/-- Flushes the sinks. -/
def flush (reader : Reader σ) : Reply (Reader σ) :=
  let (reply, sinks) := reader.sinks.flushAll
  (reply, { reader with sinks := sinks })

/-- Sends what is gathered and flushes the sinks. Does nothing the second
time. -/
def finish (reader : Reader σ) : Step (Reader σ) :=
  if reader.isDone then (.ok .done, reader)
  else
    let (packets, reader) := { reader with isDone := true }.takeGathered
    match reader.send packets with
    | (.error fault, reader) => (.error fault, reader)
    | (.ok (), reader) =>
        match reader.flush with
        | (.error fault, reader) => (.error fault, reader)
        | (.ok (), reader) => (.ok .done, reader)

/-- Takes in the next payload that a sink wants, and sends what that makes
ready. -/
def read (reader : Reader σ) : Step (Reader σ) :=
  if reader.isDone then (.ok .done, reader)
  else
    match reader.walk.nextDelivery reader.wantedTrack with
    | (.error error, walk) => (.error error.toFault, { reader with walk := walk })
    | (.ok none, walk) => { reader with walk := walk }.finish
    | (.ok (some delivery), walk) =>
        match reader.timecodeOf delivery with
        | .error fault => (.error fault, { reader with walk := walk })
        | .ok timecode =>
            let (ready, reader) := { reader with walk := walk }.gather delivery timecode
            match reader.send ready with
            | (.error fault, reader) => (.error fault, reader)
            | (.ok (), reader) => (.ok .moreData, reader)

end Reader

/-- Whether a source starts with a pack header. -/
def probe (source : Source) : Bool := source.numberAt? 0 4 == some packStartCode

end MediaSplit.ProgramStream
