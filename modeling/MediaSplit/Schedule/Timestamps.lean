import MediaSplit.Schedule.Lines
import MediaSplit.Schedule.Pull
import MediaSplit.Time.Nanoseconds

/-!
Contract: schedules with one timestamp for each frame (format version 2).

Owns: `Timestamps`, sorted timestamps with the spacing that goes on behind the
last of them, and `Timestamps.load`, which reads them from lines.

The spacing is the most frequent difference of neighbours, the least one of
equally frequent ones. Going past the last timestamp is remarked upon once.
-/

set_option autoImplicit false

namespace MediaSplit.Schedule

/-- A schedule of timestamps. -/
structure Timestamps where
  /-- In ascending order. -/
  timecodes : Array Int
  /-- Difference of consecutive timecodes behind the last one. -/
  spacing : Int
  /-- Index of the frame whose timing is asked for next. -/
  frame : Nat
  /-- Whether going past the last timestamp has been remarked upon. -/
  hasWarned : Bool
  deriving DecidableEq, Repr, Inhabited

namespace Timestamps

/-- Differences of neighbours. -/
def differences (timecodes : List Int) : List Int :=
  (timecodes.zip timecodes.tail).map fun (earlier, later) => clamped (later - earlier)

/-- Runs of equal neighbours, each as its value and length, put before `runs`
in reverse order. -/
def runsOnto (runs : List (Int × Nat)) : List Int → List (Int × Nat)
  | [] => runs
  | value :: rest =>
      match runs with
      | (current, count) :: older =>
          if current = value then runsOnto ((current, count + 1) :: older) rest
          else runsOnto ((value, 1) :: runs) rest
      | [] => runsOnto [(value, 1)] rest

/-- The entry with the greatest count; of equal ones the last, so the least
value of runs in descending order. -/
def mostCounted : List (Int × Nat) → Int × Nat
  | [] => (0, 0)
  | run :: rest =>
      let best := mostCounted rest
      if best.2 < run.2 then run else best

/-- The most frequent value, the least one of equally frequent ones; 0 where
there is none. -/
def mostFrequent (values : List Int) : Int :=
  (mostCounted (runsOnto [] (values.mergeSort fun left right => left ≤ right))).1

/-- The schedule of timestamps in any order. -/
def ofTimecodes (timecodes : List Int) : Timestamps :=
  let sorted := timecodes.mergeSort fun left right => left ≤ right
  { timecodes := sorted.toArray
    spacing := mostFrequent (differences sorted)
    frame := 0
    hasWarned := false }

/-- The number of timestamps. -/
def size (schedule : Timestamps) : Nat := schedule.timecodes.size

/-- The frame rate that the spacing implies, 0 where it implies none. -/
def defaultRate (schedule : Timestamps) : Float :=
  if 0 < schedule.spacing then 1000000000.0 / Float.ofInt schedule.spacing else 0.0

/-- The timecode of a frame behind the last timestamp. -/
def extrapolated (schedule : Timestamps) (frame : Nat) : Int :=
  let last := schedule.timecodes.back?.getD 0
  let beyond : Int := ((frame + 1 - max schedule.size 1 : Nat) : Int)
  clamped (last + clamped (beyond * schedule.spacing))

/-- The timecode of a frame. -/
def timecodeAt (schedule : Timestamps) (frame : Nat) : Int :=
  (schedule.timecodes[frame]?).getD (schedule.extrapolated frame)

/-- How long a frame lasts: up to the next timestamp where there is one. -/
def durationAt (schedule : Timestamps) (frame : Nat) : Int :=
  match schedule.timecodes[frame]?, schedule.timecodes[frame + 1]? with
  | some timecode, some next => clamped (next - timecode)
  | _, _ => schedule.spacing

/-- The remark about frames behind the last timestamp. -/
def overrunWarning : Warning :=
  ⟨none,
    "the number of external timecodes is smaller than the number of frames in this track"⟩

/-- Makes the remark about frames behind the last timestamp, unless it has been made. -/
def remark (schedule : Timestamps) : List Warning × Timestamps :=
  if schedule.hasWarned then ([], schedule)
  else ([overrunWarning], { schedule with hasWarned := true })

/-- Asks for the timing of the next frame, and goes on to the one behind it unless
`peekOnly`. Even then it may remark that there is no timestamp for the frame. -/
def next (schedule : Timestamps) (peekOnly : Bool) : Pull × List Warning × Timestamps :=
  let frame := schedule.frame
  let (pull, warnings, schedule) : Pull × List Warning × Timestamps :=
    match schedule.timecodes[frame]? with
    | some timecode => (⟨timecode, some (schedule.durationAt frame), frame == 0⟩, [], schedule)
    | none =>
        (⟨schedule.extrapolated frame, some schedule.spacing, frame == 0⟩, schedule.remark)
  (pull, warnings,
    if peekOnly then schedule else { schedule with frame := schedule.frame + 1 })

/-- Reads a data line: a timestamp in milliseconds. -/
def read (line : List Char) : LineResult Int :=
  match Text.float? line with
  | some milliseconds =>
      if milliseconds.isFinite then .ok (Time.ofFloat (milliseconds * 1000000.0).round)
      else .error "line does not contain a valid floating point number"
  | none => .error "line does not contain a valid floating point number"

/-- The schedule of some timestamps; their absence is remarked upon. -/
def build (timecodes : List Int) : Loaded Timestamps :=
  (.ok (ofTimecodes timecodes),
    if timecodes.isEmpty then [⟨none, "the timecode file does not contain any valid entry"⟩]
    else [])

/-- Reads the lines behind the format line. -/
def load (lines : Lines) : Loaded Timestamps := loadEntries read build lines

end Timestamps

end MediaSplit.Schedule
