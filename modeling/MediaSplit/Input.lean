import MediaSplit.Ac3.Reader
import MediaSplit.Dts.Reader
import MediaSplit.ProgramStream.Reader
import MediaSplit.TrueHd.Reader

/-!
Contract: inputs of any supported format.

Owns:
- `Input.Format` with the order in which formats are tried, and
  `Format.detect?`, the first one that fits a source;
- `Input.Reader`, a reader of one of them, and how it is opened.

A program stream is tried before the raw formats, and of these the stricter
ones before AC-3.
-/

set_option autoImplicit false

namespace MediaSplit.Input

/-- The supported formats. -/
inductive Format where
  | programStream
  | trueHd
  | dts
  | ac3
  deriving DecidableEq, Repr, Inhabited

namespace Format

/-- All formats, in the order in which they are tried. -/
def all : List Format := [programStream, trueHd, dts, ac3]

/-- Short name. -/
def name : Format → String
  | programStream => "MPEG PS"
  | trueHd => "TrueHD"
  | dts => "DTS"
  | ac3 => "AC3"

/-- Whether a source of this size holds the format. -/
def fits (format : Format) (source : Source) (size : Nat) : Bool :=
  match format with
  | programStream => ProgramStream.probe source
  | trueHd => TrueHd.probe source
  | dts => Dts.probe source size
  | ac3 => Ac3.probe source

/-- The first format that fits a source. -/
def detect? (source : Source) : Option Format := all.find? (·.fits source source.size)

end Format

/-- A reader of one of the formats, with sinks of type `σ`. -/
inductive Reader (σ : Type) where
  | programStream (reader : ProgramStream.Reader σ)
  | trueHd (reader : TrueHd.Reader σ)
  | dts (reader : Dts.Reader σ)
  | ac3 (reader : Ac3.Reader σ)

namespace Reader

variable {σ : Type}

/-- The format that is read. -/
def format : Reader σ → Format
  | programStream _ => .programStream
  | trueHd _ => .trueHd
  | dts _ => .dts
  | ac3 _ => .ac3

/-- Opens a source of a known format. -/
def ofSourceAs (format : Format) (source : Source) : Except Fault (Reader σ) :=
  match format with
  | .programStream => programStream <$> ProgramStream.Reader.ofSource source .standard
  | .trueHd => trueHd <$> TrueHd.Reader.ofSource source TrueHd.windowSize
  | .dts => dts <$> Dts.Reader.ofSource source Elementary.defaultChunkSize
  | .ac3 => ac3 <$> Ac3.Reader.ofSource source Elementary.defaultChunkSize

/-- Opens a source of any format. -/
def ofSource (source : Source) : Except Fault (Reader σ) :=
  match Format.detect? source with
  | some format => ofSourceAs format source
  | none => .error (.cannotOpen "unsupported or unrecognized input format")

/-- Opens a named file, given its contents or why they cannot be had. -/
def ofFile (path : String) (contents : Except SourceFault Source) : Except Fault (Reader σ) :=
  match SourceFault.guardName path contents with
  | .ok source => ofSource source
  | .error fault => .error (.cannotOpen (path ++ ": " ++ fault.message))

/-- What the reader calls its format. -/
def formatName : Reader σ → String
  | programStream reader => reader.formatName
  | reader => reader.format.name

/-- The tracks of the input. -/
def tracks : Reader σ → List Track
  | programStream reader => reader.tracks
  | trueHd reader => reader.stream.tracks
  | dts reader => reader.stream.tracks
  | ac3 reader => reader.stream.tracks

/-- The sinks of the reader. -/
def sinks : Reader σ → SinkTable σ
  | programStream reader => reader.sinks
  | trueHd reader => reader.stream.sinks
  | dts reader => reader.stream.sinks
  | ac3 reader => reader.stream.sinks

/-- The reader with other sinks. -/
def withSinks (reader : Reader σ) (sinks : SinkTable σ) : Reader σ :=
  match reader with
  | programStream reader => programStream { reader with sinks := sinks }
  | trueHd reader => trueHd { reader with stream := { reader.stream with sinks := sinks } }
  | dts reader => dts { reader with stream := { reader.stream with sinks := sinks } }
  | ac3 reader => ac3 { reader with stream := { reader.stream with sinks := sinks } }

/-- Routes the packets of a track to `sink`. -/
def attach (reader : Reader σ) (track : Nat) (sink : σ) : Except Fault Unit × Reader σ :=
  let (outcome, sinks) := reader.sinks.attach track sink
  (outcome, reader.withSinks sinks)

variable [PacketSink σ]

/-- Does the next unit of work. -/
def read : Reader σ → Step (Reader σ)
  | programStream reader => reader.read.map id programStream
  | trueHd reader => reader.stream.read.map id fun stream => trueHd { reader with stream := stream }
  | dts reader => reader.stream.read.map id fun stream => dts { reader with stream := stream }
  | ac3 reader => reader.stream.read.map id fun stream => ac3 { reader with stream := stream }

/-- Sends what is pending and flushes the sinks. -/
def finish : Reader σ → Step (Reader σ)
  | programStream reader => reader.finish.map id programStream
  | trueHd reader =>
      reader.stream.finish.map id fun stream => trueHd { reader with stream := stream }
  | dts reader => reader.stream.finish.map id fun stream => dts { reader with stream := stream }
  | ac3 reader => reader.stream.finish.map id fun stream => ac3 { reader with stream := stream }

end Reader

end MediaSplit.Input
