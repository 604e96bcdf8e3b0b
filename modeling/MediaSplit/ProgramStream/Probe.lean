import MediaSplit.Ac3.Search
import MediaSplit.Avc.Search
import MediaSplit.Dts.Search
import MediaSplit.MpegAudio
import MediaSplit.MpegVideo.Search
import MediaSplit.ProgramStream.StreamId
import MediaSplit.Vc1

/-!
Contract: finding out what a stream of a program holds.

Owns:
- `Probe`, chosen from the key and the first payload of a stream, fed with its
  payloads, and asked for a `Finding` in the end;
- `Obstacle`, why a stream cannot be made a track, and its wording.

Audio probes are decided by one payload, except the one for DTS, which gathers
payloads until a header appears. Video probes search for the headers of their
format and do not care where payloads are cut.
-/

set_option autoImplicit false

namespace MediaSplit.ProgramStream

/-- What is known of a stream in the end. -/
structure Finding where
  codec : Codec
  params : CodecParams
  /-- Codec setup bytes. -/
  privateData : Option Bytes
  /-- Bytes that its payloads may be gathered to; `none` keeps them apart. -/
  bufferCapacity : Option Nat
  deriving Repr, Inhabited

/-- Why a stream cannot be made a track. An overflow is the one obstacle that
does not only keep a stream out of the tracks. -/
inductive Obstacle where
  | subtitles
  | sampledAudio
  | unknownSubStream
  | videoTooShort
  | unknownVideo
  | missingSubId
  | notElementary
  | noMpegAudioHeader
  | noAc3Header
  | noDtsHeader
  | noSequenceHeader
  | noAdvancedHeader
  | noParameterSets
  | invalidParameterSet
  | overflow
  deriving DecidableEq, Repr, Inhabited

/-- The text shown for an obstacle. -/
def Obstacle.message : Obstacle → String
  | subtitles => "VobSub subtitles are not supported"
  | sampledAudio => "PCM audio is not supported"
  | unknownSubStream => "unknown private stream 1 sub-stream"
  | videoTooShort => "first video payload shorter than four bytes"
  | unknownVideo => "video payload starts with neither a NAL unit nor a sequence header"
  | missingSubId => "private stream 1 packet without a sub-stream id"
  | notElementary => "stream id cannot carry an elementary stream"
  | noMpegAudioHeader => "no MPEG audio header in the first payload"
  | noAc3Header => "no AC-3 header in the first payload"
  | noDtsHeader => "no DTS header found"
  | noSequenceHeader => "no sequence header followed by a picture"
  | noAdvancedHeader => "no advanced profile sequence header found"
  | noParameterSets => "no sequence and picture parameter sets found"
  | invalidParameterSet => "invalid sequence parameter set"
  | overflow => Fault.message .overflow

/-- A search for the headers of one stream, by its format. -/
inductive Probe where
  | mpegAudio (header : Option MpegAudio.Header)
  | ac3 (header : Option Ac3.Header)
  /-- Also holds every byte so far. -/
  | dts (gathered : Bytes) (header : Option Dts.Header)
  | mpegVideo (search : Units.Search (Option MpegVideo.Finding))
  | avc (search : Units.Search Avc.ParameterSets)
  | vc1 (search : Units.Search (Option Vc1.SequenceHeader))
  deriving Inhabited

namespace Probe

/-- The probe for a sub-stream of private stream 1. -/
def ofSubStream (subId : Nat) : Except Obstacle Probe :=
  if 0x20 ≤ subId ∧ subId ≤ 0x3F then .error .subtitles
  else if 0x80 ≤ subId ∧ subId ≤ 0x87 ∨ 0xC0 ≤ subId ∧ subId ≤ 0xC7 then .ok (.ac3 none)
  else if 0x88 ≤ subId ∧ subId ≤ 0x9F then .ok (.dts [] none)
  else if 0xA0 ≤ subId ∧ subId ≤ 0xA7 then .error .sampledAudio
  else .error .unknownSubStream

/-- The word that starts an AVC stream. -/
def avcStartWord : Nat := 0x00000001

/-- The words that start an MPEG video stream. -/
def mpegVideoStartWords : List Nat := [0x1B3, packStartCode, systemHeaderCode]

/-- The probe for a video stream with this first payload. -/
def ofVideo (first : Bytes) : Except Obstacle Probe :=
  if !Bytes.hasAtLeast 4 first then .error .videoTooShort
  else
    let word := Bytes.toNumber (first.take 4)
    if word = avcStartWord then .ok (.avc (.starting ⟨none, none⟩))
    else if mpegVideoStartWords.contains word then .ok (.mpegVideo (.starting none))
    else .error .unknownVideo

/-- The probe for the stream of this key with this first payload. -/
def ofKey (key : Nat) (first : Bytes) : Except Obstacle Probe :=
  if 0xFF < key then ofSubStream ((key - 256) % 256)
  else if StreamId.isAudio key then .ok (.mpegAudio none)
  else if StreamId.isVideo key then ofVideo first
  else if key = StreamId.extended then .ok (.vc1 (.starting none))
  else if key = StreamId.privateStream1 then .error .missingSubId
  else .error .notElementary

/-- Whether a search needs no more payloads, put before its probe. -/
def ofSearch {σ : Type} (probe : Units.Search σ → Probe) (search : Units.Search σ) :
    Bool × Probe :=
  (search.isComplete, probe search)

/-- Takes in a payload; says whether no more are needed. -/
def push (probe : Probe) (payload : Bytes) : Bool × Probe :=
  match probe with
  | mpegAudio _ => (true, mpegAudio ((MpegAudio.findHeader? payload).map (·.2)))
  | ac3 _ => (true, ac3 ((Ac3.findHeader? payload).map (·.2)))
  | dts gathered (some header) => (true, dts gathered (some header))
  | dts gathered none =>
      let gathered := gathered ++ payload
      let header := (Dts.findHeader? gathered).map (·.2)
      (header.isSome, dts gathered header)
  | mpegVideo search => ofSearch mpegVideo (search.push MpegVideo.rules payload)
  | avc search => ofSearch avc (search.push Avc.rules payload)
  | vc1 search => ofSearch vc1 (search.push Vc1.rules payload)

/-- Bytes that MPEG video is gathered to. -/
def mpegVideoCapacity : Nat := 128000

/-- Bytes that AVC video is gathered to. -/
def avcCapacity : Nat := 256000

/-- Bytes that VC-1 video is gathered to. -/
def vc1Capacity : Nat := 512000

/-- An audio stream, whose payloads stay apart. -/
def audio (codec : Codec) (sampleRate channels : Nat) (bitDepth bitstreamId : Option Nat) :
    Finding :=
  ⟨codec, .audio ⟨sampleRate, channels, bitDepth, bitstreamId⟩, none, none⟩

/-- A video stream. -/
def video (codec : Codec) (params : CodecParams) (privateData : Bytes) (capacity : Nat) :
    Finding :=
  ⟨codec, params, some privateData, some capacity⟩

/-- What the parameter sets of an AVC stream tell. -/
def ofParameterSets : Avc.ParameterSets → Except Obstacle Finding
  | ⟨some sequenceSet, some pictureSet⟩ =>
      match Avc.parseSet sequenceSet with
      | .ok sps =>
          .ok (video .avc sps.params (Avc.decoderConfig [sequenceSet] [pictureSet]) avcCapacity)
      | .error .overflow => .error .overflow
      | .error _ => .error .invalidParameterSet
  | _ => .error .noParameterSets

/-- What everything taken in tells of the stream. -/
def finding : Probe → Except Obstacle Finding
  | mpegAudio (some header) =>
      .ok (audio header.codec header.sampleRate header.channels none none)
  | mpegAudio none => .error .noMpegAudioHeader
  | ac3 (some header) =>
      .ok (audio header.codec header.sampleRate header.channels none (some header.bitstreamId))
  | ac3 none => .error .noAc3Header
  | dts _ (some header) =>
      .ok (audio .dts header.sampleRate header.channels header.bitDepth none)
  | dts _ none => .error .noDtsHeader
  | mpegVideo ⟨some found, _, true⟩ =>
      .ok (video found.header.codec found.header.params found.units mpegVideoCapacity)
  | mpegVideo _ => .error .noSequenceHeader
  | avc search => ofParameterSets search.found
  | vc1 ⟨some header, _, _⟩ => .ok (video .vc1 header.params header.bytes vc1Capacity)
  | vc1 _ => .error .noAdvancedHeader

end Probe

end MediaSplit.ProgramStream
