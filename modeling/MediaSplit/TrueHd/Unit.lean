import MediaSplit.Ac3.Header
import MediaSplit.Framing

/-!
Contract: access units of TrueHD and MLP streams, and the AC-3 frames between
them.

Owns:
- `TrueHd.Frame`, a classified unit with the stream parameters in effect;
- `TrueHd.Classifier`, which recognises the unit at the start of some bytes.

A unit starts with four bytes whose twelve low bits of the first word are its
length in words. A major sync unit carries a sync word behind them, and then
the stream parameters; the units in between have no mark of their own, so they
are recognised only once a major sync has been seen, and share its parameters.
-/

set_option autoImplicit false

namespace MediaSplit.TrueHd

/-- The major sync word of TrueHD. -/
def trueHdSync : Nat := 0xF8726FBA

/-- The major sync word of MLP. -/
def mlpSync : Nat := 0xF8726FBB

/-- Bytes that decide every unit. -/
def headerSize : Nat := 12

/-- The least length of a unit. -/
def leastUnitSize : Nat := 8

/-- Channels that each bit of a TrueHD channel map stands for. -/
def mapChannels : List Nat := [2, 1, 1, 2, 2, 2, 2, 1, 1, 2, 2, 1, 1]

/-- Channels of each MLP channel arrangement. -/
def arrangementChannels : List Nat :=
  [1, 2, 3, 4, 3, 4, 5, 3, 4, 5, 4, 5, 6, 4, 5, 4, 5, 6, 5, 5, 6]

/-- What kind of unit a frame is. -/
inductive FrameKind where
  /-- Major sync unit of TrueHD. -/
  | trueHdSync
  /-- Major sync unit of MLP. -/
  | mlpSync
  /-- Unit without a major sync. -/
  | continuation
  /-- AC-3 frame. -/
  | ac3
  deriving DecidableEq, Repr, Inhabited

/-- A classified unit with the stream parameters in effect for it. -/
structure Frame where
  kind : FrameKind
  codec : Codec
  /-- Length in bytes. -/
  size : Nat
  /-- Samples per second, 0 where unknown. -/
  sampleRate : Nat
  channels : Nat
  /-- Samples of each channel. -/
  samples : Nat
  /-- Bits per sample, where signalled. -/
  bitDepth : Option Nat
  deriving DecidableEq, Repr, Inhabited

namespace Frame

/-- Whether the unit is a major sync unit. -/
def isSync (frame : Frame) : Bool :=
  frame.kind == .trueHdSync || frame.kind == .mlpSync

/-- How long the unit plays. -/
def duration (frame : Frame) : Option Int :=
  Time.ofSamples? frame.samples frame.sampleRate

/-- The track of a unit: AC-3 frames have one of their own. -/
def track (frame : Frame) : Nat :=
  if frame.kind = .ac3 then 1 else 0

/-- An AC-3 frame among the units. -/
def ofAc3 (header : Ac3.Header) : Frame :=
  { kind := .ac3
    codec := header.codec
    size := header.frameSize
    sampleRate := header.sampleRate
    channels := header.channels
    samples := header.samples
    bitDepth := none }

end Frame

/-- Samples per second for a rate code: a base rate, doubled as often as the
low three bits say. -/
def sampleRate (code : Nat) : Nat :=
  if code = 15 then 0
  else (if 8 ≤ code then 44100 else 48000) * 2 ^ (code % 8)

/-- Samples of a unit for a rate code. -/
def unitSamples (code : Nat) : Nat := 40 * 2 ^ (code % 8)

/-- Channels of a TrueHD channel map. -/
def channelsOfMap (map : Nat) : Nat :=
  (mapChannels.zipIdx.map fun (count, bit) => if map.testBit bit then count else 0).foldr
    (· + ·) 0

/-- Bits per sample for an MLP resolution code. -/
def resolution? (code : Nat) : Option Nat :=
  match code with
  | 0 => some 16
  | 1 => some 20
  | 2 => some 24
  | _ => none

/-- The frame of a TrueHD major sync unit; `parameters` are the four bytes
behind the sync word. The map of the second substream wins unless it is
empty. -/
def trueHdFrame (size : Nat) (parameters : Nat) : Frame :=
  let code := parameters / 2 ^ 28
  let first := parameters / 2 ^ 15 % 2 ^ 5
  let second := parameters % 2 ^ 13
  { kind := .trueHdSync
    codec := .trueHd
    size := size
    sampleRate := sampleRate code
    channels := channelsOfMap (if second = 0 then first else second)
    samples := unitSamples code
    bitDepth := none }

/-- The frame of an MLP major sync unit; `parameters` are the four bytes
behind the sync word. -/
def mlpFrame (size : Nat) (parameters : Nat) : Frame :=
  let code := parameters / 2 ^ 20 % 2 ^ 4
  { kind := .mlpSync
    codec := .mlp
    size := size
    sampleRate := sampleRate code
    channels := arrangementChannels.getD (parameters % 2 ^ 5) 0
    samples := unitSamples code
    bitDepth := resolution? (parameters / 2 ^ 28) }

/-- The major sync unit that twelve bytes start, if they start one. -/
def majorSync? (size : Nat) (header : Bytes) : Option Frame :=
  let sync := Bytes.toNumber (header.slice 4 4)
  let parameters := Bytes.toNumber (header.slice 8 4)
  if sync = trueHdSync then some (trueHdFrame size parameters)
  else if sync = mlpSync then some (mlpFrame size parameters)
  else none

/-- What starts at the first byte. -/
inductive Verdict where
  | frame (frame : Frame)
  /-- Too few bytes to tell. -/
  | needMore
  /-- No unit starts here. -/
  | noFrame
  deriving DecidableEq, Repr, Inhabited

/-- What the units seen so far say about the next one. -/
structure Classifier where
  /-- The last major sync unit. -/
  lastSync : Option Frame
  /-- The number of major sync units. -/
  syncCount : Nat
  deriving DecidableEq, Repr, Inhabited

namespace Classifier

/-- A classifier that has seen no major sync. -/
def initial : Classifier := ⟨none, 0⟩

/-- The AC-3 frame that starts with `data`. -/
def ac3Frame? (data : Bytes) : Option Frame :=
  match data with
  | 0x0B :: 0x77 :: _ => (Ac3.Header.parse? data).map Frame.ofAc3
  | _ => none

/-- Length in bytes that the first word of a unit states. -/
def unitSize (header : Bytes) : Nat :=
  Bytes.toNumber (header.take 2) % 2 ^ 12 * 2

/-- Classifies a unit of TrueHD or MLP by its first twelve bytes. -/
def classifyUnit (classifier : Classifier) (header : Bytes) : Verdict × Classifier :=
  let size := unitSize header
  if size < leastUnitSize then (.noFrame, classifier)
  else
    match majorSync? size header with
    | some frame => (.frame frame, ⟨some frame, classifier.syncCount + 1⟩)
    | none =>
        match classifier.lastSync with
        | some sync => (.frame { sync with kind := .continuation, size := size }, classifier)
        | none => (.noFrame, classifier)

/-- Classifies the unit at the start of `data`. -/
def classify (classifier : Classifier) (data : Bytes) : Verdict × Classifier :=
  if !Bytes.hasAtLeast headerSize data then (.needMore, classifier)
  else
    match ac3Frame? data with
    | some frame => (.frame frame, classifier)
    | none => classifier.classifyUnit (data.take headerSize)

/-- The verdict as a frame boundary: without a unit, one byte is dropped. -/
def scan (classifier : Classifier) (data : Bytes) : Scan × Classifier :=
  match classifier.classify data with
  | (.frame frame, classifier) => (.frame frame.size frame.duration frame.track, classifier)
  | (.needMore, classifier) => (.needMore, classifier)
  | (.noFrame, classifier) => (.skip 1, classifier)

end Classifier

end MediaSplit.TrueHd
