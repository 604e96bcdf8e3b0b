import MediaSplit.Schedule.Lines
import MediaSplit.Schedule.Pull
import MediaSplit.Time.Nanoseconds

/-!
Contract: schedules of frame ranges, each with a frame rate of its own
(format version 1).

Owns:
- `Schedule.Range`, a run of frames at one rate;
- `FrameRanges`, ranges that tile the frame line, with `timecodeAt`;
- `FrameRanges.arrange`, which turns ranges in any order into such a tiling,
  and `FrameRanges.load`, which reads them from lines.

A range that overlaps an earlier one takes effect only behind it. Frames that
no range names run at the default rate.
-/

set_option autoImplicit false

namespace MediaSplit.Schedule

/-- A run of frames at one rate. -/
structure Range where
  firstFrame : Int
  lastFrame : Int
  /-- Frames per second. -/
  rate : Float
  /-- Nanoseconds from the start of the schedule to the first frame. -/
  base : Float
  deriving DecidableEq, Repr, Inhabited

namespace Range

/-- Nanoseconds in a second, for arithmetic on rates. -/
def second : Float := 1000000000.0

/-- A range whose place in time is not known yet. -/
def ofFrames (firstFrame lastFrame : Int) (rate : Float) : Range :=
  ⟨firstFrame, lastFrame, rate, 0.0⟩

/-- The timecode of a frame, as if the range went on in both directions. -/
def timecodeAt (range : Range) (frame : Int) : Int :=
  Time.ofFloat
    (range.base + second * (Float.ofInt frame - Float.ofInt range.firstFrame) / range.rate)

/-- Nanoseconds from the start of the schedule to the end of the range. -/
def finish (range : Range) : Float :=
  range.base
    + (Float.ofInt range.lastFrame - Float.ofInt range.firstFrame + 1.0) * second / range.rate

/-- Reads a range from a line of three fields. -/
def parse? (line : List Char) : Option Range := do
  match Lines.fields line with
  | [firstFrame, lastFrame, rate] =>
      return ofFrames (← Text.integer? firstFrame) (← Text.integer? lastFrame)
        (← Text.float? rate)
  | _ => none

/-- Whether a range as written makes no sense. -/
def isInconsistent (range : Range) : Bool :=
  range.rate <= 0.0 || range.firstFrame < 0 || range.lastFrame < 0
    || range.lastFrame < range.firstFrame

/-- Reads a data line. -/
def read (line : List Char) : LineResult Range :=
  match parse? line with
  | none => .error "line could not be parsed"
  | some range =>
      if range.isInconsistent then
        .error "inconsistent data (start frame after end frame, or negative values)"
      else .ok range

end Range

/-- A schedule of frame ranges. -/
structure FrameRanges where
  /-- The ranges before the last one. -/
  ranges : List Range
  /-- The last range, which is open to the right. -/
  closing : Range
  defaultRate : Float
  /-- The frame whose timing is asked for next. -/
  frame : Int
  deriving Repr, Inhabited

namespace FrameRanges

/-- Cuts ranges, in order of their first frames, into ones that tile the frames
from `free` on; also gives the first frame behind them. -/
def tile (defaultRate : Float) : (free : Int) → List Range → List Range × Int
  | free, [] => ([], free)
  | free, range :: rest =>
      if range.lastFrame < free then tile defaultRate free rest
      else
        let gap :=
          if free < range.firstFrame then
            [Range.ofFrames free (range.firstFrame - 1) defaultRate]
          else []
        let clipped := { range with firstFrame := max range.firstFrame free }
        let (more, finish) := tile defaultRate (clamped (range.lastFrame + 1)) rest
        (gap ++ clipped :: more, finish)

/-- Places ranges one behind the other in time, the first one at `base`. -/
def place : (base : Float) → List Range → List Range
  | _, [] => []
  | base, range :: rest =>
      let placed := { range with base := base }
      placed :: place placed.finish rest

/-- The range that is open to the right, from `free` on. -/
def closingRange (defaultRate : Float) (free : Int) : Range :=
  Range.ofFrames free (max openEnd free) defaultRate

/-- Ranges in order of their first frames; ranges of one first frame keep
their order. -/
def sorted (written : List Range) : List Range :=
  written.mergeSort fun left right => left.firstFrame ≤ right.firstFrame

/-- The schedule of ranges as written. -/
def arrange (defaultRate : Float) (written : List Range) : FrameRanges :=
  let (tiles, free) := tile defaultRate 0 (sorted written)
  let closing := closingRange defaultRate free
  let placed := place 0.0 (tiles ++ [closing])
  { ranges := placed.dropLast
    closing := placed.getLast?.getD closing
    defaultRate := defaultRate
    frame := 0 }

/-- All ranges, the open one last. -/
def toList (schedule : FrameRanges) : List Range := schedule.ranges ++ [schedule.closing]

/-- The range of a frame: the first that does not end before it. -/
def rangeFor (schedule : FrameRanges) (frame : Int) : Range :=
  (schedule.ranges.find? fun range => frame ≤ range.lastFrame).getD schedule.closing

/-- The timecode of a frame. -/
def timecodeAt (schedule : FrameRanges) (frame : Int) : Int :=
  (schedule.rangeFor frame).timecodeAt frame

/-- Asks for the timing of the next frame, which lasts until the frame behind it,
and goes on to that one unless `peekOnly`. -/
def next (schedule : FrameRanges) (peekOnly : Bool) : Pull × FrameRanges :=
  let frame := schedule.frame
  let timecode := schedule.timecodeAt frame
  let duration := clamped (schedule.timecodeAt (clamped (frame + 1)) - timecode)
  let after :=
    if peekOnly then schedule else { schedule with frame := clamped (schedule.frame + 1) }
  ({ timecode := timecode
     duration := some duration
     startsSegment := (after.rangeFor frame).firstFrame == frame },
    after)

/-- The schedule of some written ranges; without any the file is refused. -/
def build (name : String) (defaultRate : Float) (written : List Range) : Loaded FrameRanges :=
  if written.isEmpty then (.error (.noEntries name), [])
  else (.ok (arrange defaultRate written), [])

/-- Reads the lines behind the format line. -/
def load (lines : Lines) : Loaded FrameRanges :=
  match lines.readDefaultRate false with
  | (.error error, _) => (.error error, [])
  | (.ok rate, lines) => loadEntries Range.read (build lines.name rate) lines

end FrameRanges

end MediaSplit.Schedule
