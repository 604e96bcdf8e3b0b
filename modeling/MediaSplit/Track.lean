import MediaSplit.Bytes

/-!
Contract: what a reader says of the tracks it found.

Owns: `Codec` with its display name and the `TrackKind` it implies, the video
and audio parameters found in stream headers, and `Track`, the description of
one track.
-/

set_option autoImplicit false

namespace MediaSplit

/-- Kind of elementary stream. -/
inductive TrackKind where
  | video
  | audio
  | subtitle
  | unknown
  deriving DecidableEq, Repr, Inhabited

namespace TrackKind

/-- Place of a kind in a track list: video, audio, subtitles, the rest. -/
def rank : TrackKind → Nat
  | video => 0
  | audio => 1
  | subtitle => 2
  | unknown => 3

/-- Display name. -/
def name : TrackKind → String
  | video => "video"
  | audio => "audio"
  | subtitle => "subtitles"
  | unknown => "unknown"

end TrackKind

/-- Coding of an elementary stream. -/
inductive Codec where
  | mpeg1Video
  | mpeg2Video
  | mpeg4Video
  | avc
  | vc1
  | mp1
  | mp2
  | mp3
  | aac
  | ac3
  | eac3
  | dts
  | trueHd
  | mlp
  | pcm
  | lpcm
  | vobSub
  | unknown
  deriving DecidableEq, Repr, Inhabited

namespace Codec

/-- Every codec that is known. -/
def all : List Codec :=
  [mpeg1Video, mpeg2Video, mpeg4Video, avc, vc1, mp1, mp2, mp3, aac, ac3, eac3, dts, trueHd, mlp,
    pcm, lpcm, vobSub]

/-- Display name. -/
def name : Codec → String
  | mpeg1Video => "MPEG-1"
  | mpeg2Video => "MPEG-2"
  | mpeg4Video => "MPEG-4"
  | avc => "AVC/h.264"
  | vc1 => "VC1"
  | mp1 => "MPEG-1 layer 1"
  | mp2 => "MPEG-1 layer 2"
  | mp3 => "MPEG-1 layer 3"
  | aac => "AAC"
  | ac3 => "AC3"
  | eac3 => "EAC3"
  | dts => "DTS"
  | trueHd => "TrueHD"
  | mlp => "MLP"
  | pcm => "PCM"
  | lpcm => "LPCM"
  | vobSub => "VobSub"
  | unknown => "unknown"

/-- The kind of track that a codec implies. -/
def kind : Codec → TrackKind
  | mpeg1Video | mpeg2Video | mpeg4Video | avc | vc1 => .video
  | vobSub => .subtitle
  | unknown => .unknown
  | _ => .audio

end Codec

/-- Video parameters from the stream headers. -/
structure VideoParams where
  /-- MPEG version (1 or 2) of MPEG video, 0 otherwise. -/
  version : Nat
  width : Nat
  height : Nat
  displayWidth : Nat
  displayHeight : Nat
  /-- Frames per second, where known. -/
  frameRate : Option Float
  /-- Display aspect ratio, where signalled. -/
  aspectRatio : Option Float
  deriving Repr, Inhabited

/-- Audio parameters from the stream headers. -/
structure AudioParams where
  /-- Samples per second. -/
  sampleRate : Nat
  channels : Nat
  /-- Bits per sample, where the format signals it. -/
  bitDepth : Option Nat
  /-- Bitstream id of the AC-3 family. -/
  bitstreamId : Option Nat
  deriving DecidableEq, Repr, Inhabited

/-- Parameters of a track, if any are known. -/
inductive CodecParams where
  | video (params : VideoParams)
  | audio (params : AudioParams)
  | unknown
  deriving Repr, Inhabited

/-- Description of one track of an opened input. -/
structure Track where
  /-- Index in the reader's track list. -/
  number : Nat
  /-- Id in the container; ids of private sub-streams are raised by 256. -/
  id : Nat
  kind : TrackKind
  codec : Codec
  /-- First timestamp of the track, relative to the earliest of all tracks. -/
  timecodeOffset : Option Int
  params : CodecParams
  /-- Codec setup bytes such as sequence headers. -/
  privateData : Option Bytes
  deriving Repr, Inhabited

namespace Track

/-- A track about which nothing but its codec is known. -/
def ofCodec (number id : Nat) (codec : Codec) : Track :=
  ⟨number, id, codec.kind, codec, none, .unknown, none⟩

/-- The video parameters of a video track. -/
def video? (track : Track) : Option VideoParams :=
  match track.params with
  | .video params => some params
  | _ => none

/-- The audio parameters of an audio track. -/
def audio? (track : Track) : Option AudioParams :=
  match track.params with
  | .audio params => some params
  | _ => none

end Track

end MediaSplit
